import Composer.Proofs.Declaration.Vocabulary
import Composer.Proofs.Model.Bare
import Composer.Synthesis.Wrapper

/-!
The heads of wrapper methods. A head with a semicolon behind it spells a method of an interface,
over the state of the host. Parsing gives the method back, so a head determines the signature,
whatever the types in it are made of.
-/

namespace Composer

/-! ### Sentences of one text -/

theorem Lexes.unique {bytes : List UInt8} {kinds others : List TokenKind}
    (first : Lexes bytes kinds) (second : Lexes bytes others) : kinds = others := by
  induction first generalizing others with
  | done ended =>
      cases second with
      | done _ => rfl
      | token next _ _ =>
          rw [ended] at next
          cases next
  | token next scanned _ ih =>
      cases second with
      | done ended =>
          rw [next] at ended
          cases ended
      | token otherNext otherScanned later =>
          rw [next] at otherNext
          cases otherNext
          rw [scanned] at otherScanned
          cases otherScanned
          rw [ih later]

/-- What is written by the same kinds is the same up to spans. -/
theorem Parse.Completes.unique {Node : Type} {action : Parse Node} {bare : Node → Node}
    {written : Node → List TokenKind → Prop} {follows : List TokenKind → Prop}
    (complete : Completes action bare written follows) (ends : follows []) {first second : Node}
    {kinds : List TokenKind} (firstWritten : written first kinds)
    (secondWritten : written second kinds) : bare first = bare second := by
  let tokens : List Token := kinds.map fun kind => ⟨kind, default⟩
  let cursor : Cursor := ⟨⟨"", ""⟩, default, tokens, default, [], .empty⟩
  have ahead : cursor.kinds = kinds ++ [] := by
    have kept : (Token.kind ∘ fun kind => ⟨kind, default⟩) = (id : TokenKind → TokenKind) := rfl
    rw [Cursor.kinds, List.map_map, kept, List.map_id, List.append_nil]
  obtain ⟨result, after, ran, same, _⟩ := complete firstWritten ends cursor ahead rfl
  obtain ⟨other, otherAfter, otherRan, otherSame, _⟩ := complete secondWritten ends cursor ahead rfl
  rw [ran] at otherRan
  cases otherRan
  rw [← same, otherSame]

namespace Spells

variable {first second : String} {kinds others : List TokenKind}

theorem unique (spells : Spells first kinds) (also : Spells first others) : kinds = others := by
  have ended : Lexes [] [] := .done rfl
  have one := spells (fun _ none => by cases none) ended
  have other := also (fun _ none => by cases none) ended
  rw [List.append_nil] at one other
  rw [List.append_nil] at one other
  exact one.unique other

theorem keyword (word : Keyword) : Spells word.text [.keyword word] :=
  fun _ _ stops later => .spelled (.keyword word) trivial ⟨fun _ => stops, nofun⟩ later

theorem append_blank (before : Spells first kinds) (behind : Spells second others) :
    Spells (first ++ (" " ++ second)) (kinds ++ others) := by
  have start : textBytes (" " ++ second) = 0x20 :: textBytes second := text_bytes_append " " second
  exact before.append behind.blank start rfl

theorem append_colon (before : Spells first kinds) (behind : Spells second others) :
    Spells (first ++ (": " ++ second)) (kinds ++ .mark .colon :: others) := by
  have start : textBytes (": " ++ second) = 0x3a :: 0x20 :: textBytes second :=
    text_bytes_append ": " second
  refine before.append ?_ start rfl
  intro more rest stops later
  have blank := behind.blank stops later
  rw [text_bytes_append, List.append_assoc] at blank
  rw [start]
  exact .spelled (.mark .colon) trivial ⟨nofun, fun _ => nofun⟩ blank

end Spells

/-! ### Heads of methods -/

def MethodDecl.over (decl : MethodDecl) (state : String) : MethodDecl :=
  { decl with receiver := ⟨decl.receiver.kind, .path [⟨state, default⟩] [] default, default⟩ }

theorem Param.spells {param : Param} (named : IsIdentifier param.name.name)
    (typed : param.type.WellNamed) :
    ∃ kinds, param.Written kinds ∧ Spells (param.name.name ++ ": " ++ param.type.text) kinds := by
  obtain ⟨kinds, written, spells⟩ := TypeExpr.text_written typed
  refine ⟨_, ⟨kinds, written, rfl⟩, ?_⟩
  rw [String.append_assoc]
  exact (Spells.identifier named).append_colon spells

namespace WrapperMethod

variable {decl : MethodDecl} {state : String}

def receiverText (kind : ReceiverKind) (state : String) : String :=
  match kind with
  | .snapshot => "self: @" ++ state
  | .reference => "ref self: " ++ state

theorem receiver_spells (decl : MethodDecl) (named : IsIdentifier state) :
    ∃ kinds, (decl.over state).receiver.Written kinds ∧
      Spells (receiverText decl.receiver.kind state) kinds := by
  have type : TypeExpr.Written (.path [⟨state, default⟩] [] default) [.identifier state] :=
    .path .nil .none
  have name := Spells.identifier named
  rw [MethodDecl.over]
  cases decl.receiver.kind with
  | snapshot =>
      refine ⟨_, .snapshot type, ?_⟩
      have text : receiverText .snapshot state =
          Keyword.self.text ++ (": " ++ (Mark.atSign.text ++ state)) := by
        rw [← String.append_assoc, ← String.append_assoc]
        rfl
      rw [text]
      exact (Spells.keyword .self).append_colon (name.mark .atSign (by decide))
  | reference =>
      refine ⟨_, .reference type (by simp), ?_⟩
      have text : receiverText .reference state =
          Keyword.ref.text ++ (" " ++ (Keyword.self.text ++ (": " ++ state))) := by
        rw [← String.append_assoc, ← String.append_assoc, ← String.append_assoc]
        rfl
      rw [text]
      exact (Spells.keyword .ref).append_blank ((Spells.keyword .self).append_colon name)

/-- The texts between the parentheses of the head. -/
theorem params_spell (named : decl.WellNamed) {first : String} {here : List TokenKind}
    (receiver : Spells first here) :
    ∃ params, Led (.mark .comma) True Param.Written decl.params params ∧
      Spells (String.intercalate ", " (first ::
        decl.signature.params.map fun param => param.name ++ ": " ++ param.type))
        (here ++ params) := by
  have texts : (decl.signature.params.map fun param => param.name ++ ": " ++ param.type) =
      decl.params.map fun param => param.name.name ++ ": " ++ param.type.text :=
    List.map_map
  rw [texts]
  apply receiver.comma_led
  intro param member
  exact param.spells (named.param_names param member) (named.param_types param member)

def retText : Option String → String
  | some ret => " -> " ++ ret
  | none => ""

theorem ret_spells (named : decl.WellNamed) :
    ∃ kinds, Optional (.mark .arrow) TypeExpr.Written decl.ret kinds ∧
      Spells (retText decl.signature.ret ++ ";") (kinds ++ [.mark .semicolon]) := by
  cases stated : decl.ret with
  | none =>
      have text : retText decl.signature.ret = "" := by rw [MethodDecl.signature, stated]; rfl
      refine ⟨[], .none, ?_⟩
      rw [text]
      exact Spells.nothing.append_close .semicolon (by decide)
  | some type =>
      obtain ⟨kinds, written, spells⟩ := TypeExpr.text_written (named.ret type stated)
      have text : retText decl.signature.ret ++ ";" =
          " " ++ (Mark.arrow.text ++ (" " ++ (type.text ++ Mark.semicolon.text))) := by
        rw [MethodDecl.signature, stated, ← String.append_assoc, ← String.append_assoc,
          ← String.append_assoc]
        rfl
      refine ⟨_, .some written, ?_⟩
      rw [text]
      exact ((spells.append_close .semicolon (by decide)).blank.mark .arrow (by decide)).blank

theorem header_eq (method : WrapperMethod) (state : String) :
    method.header state =
      "fn " ++ method.signature.name ++ "(" ++
        String.intercalate ", " (receiverText method.signature.receiver state ::
          method.signature.params.map fun param => param.name ++ ": " ++ param.type) ++ ")" ++
        retText method.signature.ret := by
  rcases method with ⟨⟨name, receiver, params, ret⟩, body⟩
  cases ret with
  | none => exact String.append_empty.symm
  | some ret => exact String.append_assoc

/-- A head with a semicolon behind it is a method of an interface. -/
theorem header_spells {method : WrapperMethod} (signature : decl.signature = method.signature)
    (named : decl.WellNamed) (stateNamed : IsIdentifier state) :
    ∃ kinds, (decl.over state).Written kinds ∧ Spells (method.header state ++ ";") kinds := by
  obtain ⟨receiver, received, receiverSpells⟩ := receiver_spells decl stateNamed
  obtain ⟨params, listed, paramsSpell⟩ := params_spell named receiverSpells
  obtain ⟨ret, returned, retSpells⟩ := ret_spells named
  refine ⟨_, ⟨receiver, params, ret, received, listed, returned, rfl⟩, ?_⟩
  have inside := paramsSpell.append_mark .rightParen (by decide) retSpells
  have whole := (Spells.keyword .fn).append_blank
    ((Spells.identifier named.name).append_mark .leftParen (by decide) inside)
  have start (text : String) : Keyword.fn.text ++ (" " ++ text) = "fn " ++ text := by
    rw [← String.append_assoc]
    rfl
  rw [start, List.append_assoc] at whole
  rw [header_eq, ← signature]
  simp only [String.append_assoc] at whole ⊢
  exact whole

/-- The head of a method determines its signature. -/
theorem signature_of_header {method other : WrapperMethod} {otherDecl : MethodDecl}
    (signature : decl.signature = method.signature)
    (otherSignature : otherDecl.signature = other.signature) (named : decl.WellNamed)
    (otherNamed : otherDecl.WellNamed) (stateNamed : IsIdentifier state)
    (same : method.header state = other.header state) : method.signature = other.signature := by
  obtain ⟨kinds, written, spells⟩ := header_spells signature named stateNamed
  obtain ⟨others, otherWritten, otherSpells⟩ := header_spells otherSignature otherNamed stateNamed
  rw [same] at spells
  cases spells.unique otherSpells
  have bare := Parse.Accepts.method.unique trivial written otherWritten
  have signatures := congrArg MethodDecl.signature bare
  rw [MethodDecl.signature_bare, MethodDecl.signature_bare] at signatures
  rw [← signature, ← otherSignature]
  exact signatures

end WrapperMethod

end Composer
