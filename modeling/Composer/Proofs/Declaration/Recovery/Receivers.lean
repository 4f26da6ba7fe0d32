import Composer.Proofs.Declaration.Completeness.Grammar
import Composer.Proofs.Declaration.Recovery.Blocks
import Composer.Proofs.Declaration.Words

/-!
Methods with faulty receivers. The fault is found out within the parentheses of the method, and
skipping counts nesting from there: it stops at each comma that no parenthesis opened behind that
place encloses, be it between parameters or between generics. Another method is expected there, and
another error is reported.
-/

namespace Composer

/-! ### Faults -/

/-- `'self' ':' type | 'ref' 'self' ':' '@' type | ID ':' type`, where the first type starts with no
`'@'`: what may be taken for a receiver and is none. The second list is what is left of it where this
is found out. -/
inductive FaultyReceiver : List TokenKind → List TokenKind → Prop
  | byValue {type : TypeExpr} {kinds : List TokenKind} :
      type.Written kinds → kinds.head? ≠ some (.mark .atSign) →
        FaultyReceiver (.keyword .self :: .mark .colon :: kinds) []
  | snapshot {type : TypeExpr} {kinds : List TokenKind} :
      type.Written kinds →
        FaultyReceiver
          (.keyword .ref :: .keyword .self :: .mark .colon :: .mark .atSign :: kinds) []
  | parameter {param : Param} {kinds : List TokenKind} :
      param.Written kinds → FaultyReceiver kinds kinds

/-- `'fn' ID '(' faulty-receiver (',' param)* [','] ')' ['->' type] ';'`, with what is left in front of
the semicolon where the fault is found out. -/
inductive FaultyMethod : List TokenKind → List TokenKind → Prop
  | intro {name : String} {receiver left params ret : List TokenKind} {nodes : List Param}
      {type : Option TypeExpr} :
      FaultyReceiver receiver left → Led (.mark .comma) True Param.Written nodes params →
        Optional (.mark .arrow) TypeExpr.Written type ret →
          FaultyMethod
            (.keyword .fn :: .identifier name :: .mark .leftParen ::
              (receiver ++ (params ++ .mark .rightParen :: (ret ++ [.mark .semicolon]))))
            (left ++ (params ++ .mark .rightParen :: ret))

theorem FaultyReceiver.taken {receiver left : List TokenKind} (faulty : FaultyReceiver receiver left) :
    left <:+ receiver := by
  cases faulty with
  | byValue => exact List.nil_suffix
  | snapshot => exact List.nil_suffix
  | parameter => exact List.suffix_refl _

/-- The tokens of a method with a fault: some up to where the fault is found out, some that are left,
and the semicolon. -/
theorem FaultyMethod.split {tokens : List Token} {left : List TokenKind}
    (faulty : FaultyMethod (tokens.map (·.kind)) left) :
    ∃ front part semicolon, tokens = front ++ (part ++ [semicolon]) ∧ part.map (·.kind) = left ∧
      semicolon.kind = .mark .semicolon := by
  generalize same : tokens.map (·.kind) = kinds at faulty
  cases faulty with
  | @intro name receiver left params ret nodes type faulty list returned =>
      rcases faulty.taken with ⟨front, rfl⟩
      have parts : tokens.map (·.kind) =
          (.keyword .fn :: .identifier name :: .mark .leftParen :: front) ++
            ((left ++ (params ++ .mark .rightParen :: ret)) ++ [.mark .semicolon]) := by
        simp [same]
      rcases List.map_eq_append_iff.mp parts with ⟨taken, behind, rfl, _, behindKinds⟩
      rcases List.map_eq_append_iff.mp behindKinds with ⟨part, last, rfl, partKinds, lastKind⟩
      rcases List.map_eq_singleton_iff.mp lastKind with ⟨semicolon, rfl, ended⟩
      exact ⟨taken, part, semicolon, rfl, partKinds, ended⟩

theorem FaultyReceiver.composed {good : List TokenKind → Prop} {receiver left : List TokenKind}
    (composed : ComposedWhole good) (faulty : FaultyReceiver receiver left) : good receiver := by
  have self : good [.keyword .self] := composed.word (by decide)
  have colon : good [.mark .colon] := composed.mark (by decide)
  cases faulty with
  | byValue own _ => exact composed.cons self (composed.cons colon (composed.type _ _ own))
  | snapshot own =>
      have atSign : good [.mark .atSign] := composed.mark (by decide)
      exact composed.cons (composed.word (by decide)) (composed.cons self
        (composed.cons colon (composed.cons atSign (composed.type _ _ own))))
  | parameter own => exact composed.param _ _ own

theorem FaultyMethod.inner {kinds left : List TokenKind} (faulty : FaultyMethod kinds left) :
    ∀ kind ∈ kinds, Inner kind := by
  cases faulty with
  | @intro name receiver left params ret nodes type faulty list returned =>
      have self := faulty.composed inner_composed
      have others := inner_composed.led (by simp [Inner]) inner_composed.param list
      have result := inner_composed.optional (by simp [Inner]) inner_composed.type returned
      simp only [List.forall_mem_cons, List.forall_mem_append]
      exact ⟨by decide, by simp [Inner], by decide, self, others, by decide, result, by decide,
        fun _ listed => absurd listed List.not_mem_nil⟩

/-! ### Open commas -/

/-- How deep skipping is nested behind a token, by how deep it was in front of it. -/
def nestedBehind (depth : Nat) : TokenKind → Nat
  | .mark .leftParen => depth + 1
  | .mark .rightParen => depth - 1
  | _ => depth

/-- How many commas are not enclosed in parentheses, begun so deep within parentheses. -/
def openCommas : Nat → List TokenKind → Nat
  | _, [] => 0
  | depth, kind :: rest =>
      (if kind = .mark .comma ∧ depth = 0 then 1 else 0) + openCommas (nestedBehind depth kind) rest

/-- Kinds that a type or a parameter can have: none ends a member, nests otherwise than by
parentheses, or starts a method. -/
def Listable (kind : TokenKind) : Prop :=
  kind ∉ [TokenKind.mark .semicolon, .mark .leftBracket, .mark .rightBracket, .mark .leftBrace,
    .mark .rightBrace, .keyword .fn, .endOfFile]

instance (kind : TokenKind) : Decidable (Listable kind) :=
  inferInstanceAs (Decidable (¬_))

structure Enclosed (kinds : List TokenKind) : Prop where
  listable : ∀ kind ∈ kinds, Listable kind
  balanced (depth : Nat) : kinds.foldl nestedBehind depth = depth

theorem enclosed_composed : Composed Enclosed := by
  constructor
  · exact ⟨nofun, fun _ => rfl⟩
  · intro first second here later
    refine ⟨List.forall_mem_append.mpr ⟨here.listable, later.listable⟩, fun depth => ?_⟩
    rw [List.foldl_append, here.balanced, later.balanced]
  · intro name
    refine ⟨List.forall_mem_singleton.mpr ?_, fun _ => rfl⟩
    simp [Listable]
  · intro sign listed
    refine ⟨List.forall_mem_singleton.mpr ?_, fun depth => ?_⟩
    · simp only [List.mem_cons, List.not_mem_nil, or_false] at listed
      rcases listed with rfl | rfl | rfl | rfl | rfl | rfl | rfl | rfl <;> decide
    · simp only [List.mem_cons, List.not_mem_nil, or_false] at listed
      rcases listed with rfl | rfl | rfl | rfl | rfl | rfl | rfl | rfl <;> rfl
  · intro kinds inside
    refine ⟨?_, fun depth => ?_⟩
    · rw [List.forall_mem_cons, List.forall_mem_append, List.forall_mem_singleton]
      exact ⟨by decide, inside.listable, by decide⟩
    · rw [List.foldl_cons, List.foldl_append, inside.balanced]
      rfl

/-- What is left of a method holds no token that ends skipping for good, and skipping is not nested
behind it. -/
theorem FaultyMethod.left_enclosed {kinds left : List TokenKind} (faulty : FaultyMethod kinds left) :
    (∀ kind ∈ left, Listable kind) ∧ left.foldl nestedBehind 0 = 0 := by
  cases faulty with
  | @intro name receiver left params ret nodes type faulty list returned =>
      have start : Enclosed left := by
        cases faulty with
        | byValue => exact enclosed_composed.nil
        | snapshot => exact enclosed_composed.nil
        | parameter own => exact enclosed_composed.param _ _ own
      have comma : Enclosed [.mark .comma] := enclosed_composed.mark (by decide)
      have arrow : Enclosed [.mark .arrow] := enclosed_composed.mark (by decide)
      have others := enclosed_composed.led comma enclosed_composed.param list
      have result := enclosed_composed.optional arrow enclosed_composed.type returned
      constructor
      · rw [List.forall_mem_append, List.forall_mem_append, List.forall_mem_cons]
        exact ⟨start.listable, others.listable, by decide, result.listable⟩
      · rw [List.foldl_append, start.balanced, List.foldl_append, others.balanced, List.foldl_cons]
        exact result.balanced 0

/-! ### Skipping -/

namespace Cursor

variable {token : Token}

theorem skip_member_step (listable : Listable token.kind) (depth : Nat) (previous : Span)
    (rest : List Token) :
    skipMember depth previous (token :: rest) =
      if token.kind = .mark .comma ∧ depth = 0 then (token.span, rest)
      else skipMember (nestedBehind depth token.kind) token.span rest := by
  rw [skipMember]
  split <;> simp_all [Listable, nestedBehind]

/-- Skipping stops behind the first open comma, or else behind the semicolon. -/
theorem skip_member_stops {part : List Token} {semicolon : Token} {depth : Nat} (previous : Span)
    (others : List Token) (listable : ∀ token ∈ part, Listable token.kind)
    (ended : semicolon.kind = .mark .semicolon)
    (closed : (part.map (·.kind)).foldl nestedBehind depth = 0) :
    openCommas depth (part.map (·.kind)) = 0 ∧
        (skipMember depth previous (part ++ semicolon :: others)).2 = others ∨
      ∃ left, left <:+ part ∧ (left.map (·.kind)).foldl nestedBehind 0 = 0 ∧
        openCommas depth (part.map (·.kind)) = openCommas 0 (left.map (·.kind)) + 1 ∧
        (skipMember depth previous (part ++ semicolon :: others)).2 =
          left ++ semicolon :: others := by
  induction part generalizing depth previous with
  | nil =>
      change depth = 0 at closed
      subst closed
      refine .inl ⟨rfl, ?_⟩
      rw [List.nil_append, skipMember, ended]
      rfl
  | cons token part ih =>
      rw [List.forall_mem_cons] at listable
      rw [List.map_cons, List.foldl_cons] at closed
      rw [List.cons_append, skip_member_step listable.1, List.map_cons, openCommas]
      by_cases stops : token.kind = .mark .comma ∧ depth = 0
      · rw [if_pos stops, if_pos stops]
        rw [stops.1, stops.2] at closed ⊢
        exact .inr ⟨part, List.suffix_cons _ _, closed, Nat.add_comm _ _, rfl⟩
      · rw [if_neg stops, if_neg stops, Nat.zero_add]
        rcases ih token.span listable.2 closed with done | ⟨left, suffix, later⟩
        · exact .inl done
        · exact .inr ⟨left, suffix.trans (List.suffix_cons _ _), later⟩

end Cursor

namespace Parse

variable {Result Other : Type}

/-! ### Refusals -/

/-- With `input` ahead and room in the log, the action fails with one error and leaves `rest`
ahead. -/
def Refuses (action : Parse Result) (input rest : List TokenKind) : Prop :=
  ∀ cursor : Cursor, cursor.kinds = input → cursor.log.isFull = false →
    ∃ after report, action cursor = (none, after) ∧ after.kinds = rest ∧
      after.log = cursor.log.addError report

namespace Refuses

variable {input middle rest : List TokenKind} {kind : TokenKind}

theorem first {action : Parse Other} {next : Other → Parse Result}
    (refuses : Refuses action input rest) : Refuses (action >>= next) input rest := by
  intro cursor kinds room
  rcases refuses cursor kinds room with ⟨after, report, ran, left, log⟩
  exact ⟨after, report, bind_of_none ran, left, log⟩

theorem behind {action : Parse Other} {next : Other → Parse Result} {wanted : Other → Prop}
    (accepts : Accepts action input wanted middle)
    (refuses : ∀ result, wanted result → Refuses (next result) middle rest) :
    Refuses (action >>= next) input rest := by
  intro cursor kinds room
  rcases accepts cursor kinds room with ⟨result, between, ran, isWanted, taken, log⟩
  rw [← log] at room ⊢
  rcases refuses result isWanted between taken room with ⟨after, report, ranOn, left, reported⟩
  exact ⟨after, report, (bind_of_some ran).trans ranOn, left, reported⟩

theorem report (code : ErrorCode) (message : String) (span : Span) :
    Refuses (report code message span >>= fun _ => (fail : Parse Result)) input input :=
  fun _ kinds _ => ⟨_, _, rfl, kinds, rfl⟩

theorem unexpected (message : String) : Refuses (unexpected message : Parse Result) input input :=
  fun _ kinds _ => ⟨_, _, rfl, kinds, rfl⟩

theorem eat_yes {yes no : Parse Result} (refuses : Refuses yes middle rest) :
    Refuses (eat kind >>= fun took => if took = true then yes else no) (kind :: middle) rest := by
  apply behind .eat_taken
  intro took isTaken
  rw [if_pos isTaken]
  exact refuses

theorem eat_no {yes no : Parse Result} (other : input.headD .endOfFile ≠ kind)
    (refuses : Refuses no input rest) :
    Refuses (eat kind >>= fun took => if took = true then yes else no) input rest := by
  apply behind (.eat_left other)
  intro took isLeft
  rw [if_neg (ne_true_of_eq_false isLeft)]
  exact refuses

theorem expect (other : input.headD .endOfFile ≠ kind) : Refuses (expect kind) input input := by
  apply eat_no other
  apply behind .kind
  intro found _
  exact .unexpected _

/-- An action that puts no token back fails at a certain place among the tokens. -/
theorem at_tokens {action : Parse Result} {front behind : List Token}
    (refuses : Refuses action ((front ++ behind).map (·.kind)) (behind.map (·.kind)))
    (forward : Forward action) {cursor : Cursor} (ahead : cursor.ahead = front ++ behind)
    (room : cursor.log.isFull = false) :
    ∃ after report, action cursor = (none, after) ∧ after.ahead = behind ∧
      after.log = cursor.log.addError report := by
  have kinds : cursor.kinds = (front ++ behind).map (·.kind) := by rw [Cursor.kinds, ahead]
  rcases refuses cursor kinds room with ⟨after, report, ran, left, log⟩
  refine ⟨after, report, ran, ?_, log⟩
  have suffix := forward.ahead cursor
  rw [ran, ahead] at suffix
  have length : after.ahead.length = behind.length := by
    rw [← after.length_kinds, left, List.length_map]
  have shorter := List.suffix_of_suffix_length_le suffix (List.suffix_append front behind)
    (Nat.le_of_eq length)
  exact shorter.eq_of_length length

/-! ### Methods -/

/-- Only a type that starts with `@` is read as a snapshot. -/
theorem snapshot_starts {type inner : TypeExpr} {span : Span} {kinds : List TokenKind}
    (own : type.Written kinds) (same : (TypeExpr.snapshot inner span).bare = type.bare) :
    kinds.head? = some (.mark .atSign) := by
  cases own with
  | path => simp [TypeExpr.bare] at same
  | tuple => simp [TypeExpr.bare] at same
  | snapshot => rfl

theorem receiver {kinds left : List TokenKind} (faulty : FaultyReceiver kinds left)
    (ends : Accepts.EndsType rest) : Refuses receiver (kinds ++ rest) (left ++ rest) := by
  apply behind .look
  intro start _
  cases faulty with
  | @byValue type kinds own other =>
      apply behind (.eat_left (by simp))
      intro isReference direct
      apply eat_yes
      apply behind .expect
      intro colon _
      apply behind (Accepts.type own ends)
      intro result same
      rw [direct]
      cases result with
      | path => exact .report _ _ _
      | tuple => exact .report _ _ _
      | snapshot => exact absurd (snapshot_starts own same) other
  | @snapshot type kinds own =>
      have written : TypeExpr.Written (.snapshot type (.point 1 1)) (.mark .atSign :: kinds) :=
        .snapshot own
      apply behind .eat_taken
      intro isReference taken
      apply eat_yes
      apply behind .expect
      intro colon _
      apply behind (Accepts.type written ends)
      intro result same
      rw [taken]
      cases result with
      | path => simp [TypeExpr.bare] at same
      | tuple => simp [TypeExpr.bare] at same
      | snapshot => exact .report _ _ _
  | parameter own =>
      rcases own with ⟨type, _, rfl⟩
      apply behind (.eat_left (by simp))
      intro isReference _
      apply eat_no (by simp)
      apply behind .kind
      intro found _
      exact .first (.unexpected _)

/-- A method with a faulty receiver fails where the fault is found out. -/
theorem method {kinds left : List TokenKind} (faulty : FaultyMethod kinds left) :
    Refuses method (kinds ++ rest) (left ++ .mark .semicolon :: rest) := by
  cases faulty with
  | @intro name receiver left params ret nodes type faulty list returned =>
      have ends : ∀ rest, Accepts.EndsType (params ++ .mark .rightParen :: rest) := by
        intro rest
        cases list <;> exact ⟨by simp, by simp⟩
      simp only [List.cons_append, List.append_assoc, List.nil_append]
      apply behind .look
      intro start _
      apply behind .expect
      intro fn _
      have named : Ident.Written ⟨name, start⟩ [.identifier name] := rfl
      apply behind (Accepts.ident named trivial)
      intro ident _
      apply behind .expect
      intro opened _
      exact .first (.receiver faulty (ends _))

/-- Where no method starts, none is read. -/
theorem method_missing (other : input.headD .endOfFile ≠ .keyword .fn) :
    Refuses Parse.method input input := by
  apply behind .look
  intro start _
  exact .first (.expect other)

end Refuses

end Parse

end Composer
