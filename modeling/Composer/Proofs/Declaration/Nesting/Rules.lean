import Composer.Proofs.Declaration.Outcomes
import Composer.Proofs.Token.Stretch

/-!
Reading by the indices of tokens. A cursor in a row of tokens has taken as many of them as a number
says. An action takes some more, also where it fails or recovery goes on behind it; its result is
related to the numbers before and after, which is how the spans of a tree get their places.
-/

namespace Composer

structure TokenRow.At (row : TokenRow) (taken : Nat) (previous : Span) (ahead : List Token) :
    Prop where
  within : taken ≤ row.tokens.length
  ahead : ahead = row.tokens.drop taken
  previous : ∀ last token, last + 1 = taken → row.tokens[last]? = some token → previous = token.span

namespace TokenRow.At

variable {row : TokenRow} {taken : Nat} {previous : Span} {token : Token} {rest ahead : List Token}

theorem next (here : row.At taken previous (token :: rest)) :
    row.tokens[taken]? = some token ∧ row.At (taken + 1) token.span rest := by
  have dropped := here.ahead.symm
  have found : row.tokens[taken]? = some token := by
    have first : (row.tokens.drop taken)[0]? = row.tokens[taken + 0]? := List.getElem?_drop
    rw [dropped, Nat.add_zero] at first
    exact first.symm
  refine ⟨found, (List.getElem?_eq_some_iff.mp found).1, ?_, ?_⟩
  · rw [← List.tail_drop, dropped, List.tail_cons]
  · intro last other same there
    rw [Nat.succ.inj same, found] at there
    cases there
    rfl

theorem last (here : row.At taken previous ahead) {last : Nat} (same : last + 1 = taken) :
    row.Stretch last taken previous := by
  have inside : last < row.tokens.length := by
    have within := here.within
    omega
  have found := List.getElem?_eq_getElem inside
  rw [here.previous last _ same found, ← same]
  exact .of_token found

/-- Skipping leaves a cursor in the row. -/
theorem skip_member (here : row.At taken previous ahead) (depth : Nat) :
    ∃ later, taken ≤ later ∧ row.At later (Cursor.skipMember depth previous ahead).1
      (Cursor.skipMember depth previous ahead).2 := by
  induction ahead generalizing taken previous depth with
  | nil => exact ⟨taken, Nat.le_refl _, here⟩
  | cons token rest ih =>
      have behind := here.next.2
      have skipped (depth : Nat) : ∃ later, taken ≤ later ∧
          row.At later (Cursor.skipMember depth token.span rest).1
            (Cursor.skipMember depth token.span rest).2 := by
        obtain ⟨later, le, there⟩ := ih behind depth
        exact ⟨later, Nat.le_of_succ_le le, there⟩
      rw [Cursor.skipMember]
      split
      · exact skipped _
      · exact skipped _
      · exact skipped _
      · exact skipped _
      · exact skipped _
      · split
        · exact ⟨taken, Nat.le_refl _, here⟩
        · split
          · exact ⟨taken + 1, Nat.le_succ _, behind⟩
          · exact skipped _
      · split
        · exact ⟨taken + 1, Nat.le_succ _, behind⟩
        · exact skipped _
      · split
        · exact ⟨taken + 1, Nat.le_succ _, behind⟩
        · exact skipped _
      · exact skipped _

theorem skip_item (here : row.At taken previous ahead) :
    ∃ later, taken ≤ later ∧ row.At later (Cursor.skipItem previous ahead).1
      (Cursor.skipItem previous ahead).2 := by
  induction ahead generalizing taken previous with
  | nil => exact ⟨taken, Nat.le_refl _, here⟩
  | cons token rest ih =>
      rw [Cursor.skipItem]
      split
      · exact ⟨taken, Nat.le_refl _, here⟩
      · obtain ⟨later, le, there⟩ := ih here.next.2
        exact ⟨later, Nat.le_of_succ_le le, there⟩

end TokenRow.At

abbrev Cursor.At (cursor : Cursor) (row : TokenRow) (taken : Nat) : Prop :=
  row.At taken cursor.previous cursor.ahead

namespace Cursor

variable {row : TokenRow} {cursor : Cursor} {taken : Nat}

theorem At.next_token (here : cursor.At row taken) (inside : taken < row.tokens.length) :
    row.Stretch taken (taken + 1) cursor.span := by
  rw [span]
  cases ahead : cursor.ahead with
  | nil =>
      have dropped := here.ahead
      rw [ahead, eq_comm, List.drop_eq_nil_iff] at dropped
      exact absurd inside (Nat.not_lt_of_le dropped)
  | cons token rest =>
      rw [At, ahead] at here
      exact .of_token here.next.1

theorem At.taking (here : cursor.At row taken) (more : cursor.atEnd = false) :
    taken < row.tokens.length ∧ cursor.advance.At row (taken + 1) := by
  obtain ⟨token, rest, ahead⟩ := ahead_of_more more
  rw [At, ahead] at here
  rw [At, advance_of_ahead ahead]
  exact ⟨(List.getElem?_eq_some_iff.mp here.next.1).1, here.next.2⟩

end Cursor

namespace Parse

variable {Result Other State Node : Type} {row : TokenRow}

/-- Started behind `first` tokens of the row, the action stays in the row and puts none back, and a
result that it gives is of the extent said, by the number of tokens that are taken then. -/
def Traces (row : TokenRow) (first : Nat) (action : Parse Result) (extent : Result → Nat → Prop) :
    Prop :=
  ∀ cursor, cursor.At row first → ∃ last, first ≤ last ∧ (action cursor).2.At row last ∧
    ∀ result, (action cursor).1 = some result → extent result last

def Placed (row : TokenRow) (span : Node → Span) (nested : Node → Prop) (first : Nat) (node : Node)
    (stop : Nat) : Prop :=
  row.Inside first stop (span node) ∧ nested node

def Listed (row : TokenRow) (span : Node → Span) (nested : Node → Prop) (first : Nat)
    (nodes : List Node) (stop : Nat) : Prop :=
  row.Follows first stop (nodes.map span) ∧ ∀ node ∈ nodes, nested node

section Extents

variable {span : Node → Span} {nested : Node → Prop} {node : Node} {nodes : List Node}
  {first middle stop i j : Nat} {outer : Span}

theorem Placed.whole (stretch : row.Stretch first stop (span node)) (below : nested node) :
    Placed row span nested first node stop :=
  ⟨stretch.inside (Nat.le_refl _) (Nat.le_refl _), below⟩

theorem Placed.mono (placed : Placed row span nested i node j) (lower : first ≤ i)
    (upper : j ≤ stop) : Placed row span nested first node stop :=
  ⟨placed.1.mono lower upper, placed.2⟩

theorem Placed.enclosed (placed : Placed row span nested i node j)
    (wide : row.Stretch first stop outer) (lower : first ≤ i) (upper : j ≤ stop) :
    outer.Encloses (span node) ∧ nested node :=
  ⟨placed.1.enclosed wide lower upper, placed.2⟩

theorem Listed.mono (listed : Listed row span nested i nodes j) (lower : first ≤ i)
    (upper : j ≤ stop) : Listed row span nested first nodes stop :=
  ⟨listed.1.mono lower upper, listed.2⟩

theorem Listed.nil (le : first ≤ stop) : Listed row span nested first [] stop :=
  ⟨.nil le, nofun⟩

theorem Listed.cons (placed : Placed row span nested first node middle)
    (listed : Listed row span nested middle nodes stop) :
    Listed row span nested first (node :: nodes) stop :=
  ⟨.cons placed.1 listed.1, List.forall_mem_cons.mpr ⟨placed.2, listed.2⟩⟩

theorem Listed.concat (listed : Listed row span nested first nodes middle)
    (placed : Placed row span nested middle node stop) :
    Listed row span nested first (nodes ++ [node]) stop := by
  constructor
  · rw [List.map_append]
    exact listed.1.concat placed.1
  · exact forall_mem_concat listed.2 placed.2

theorem Listed.enclosed (listed : Listed row span nested i nodes j)
    (wide : row.Stretch first stop outer) (lower : first ≤ i) (upper : j ≤ stop) :
    outer.EnclosesRow (nodes.map span) ∧ ∀ node ∈ nodes, nested node :=
  ⟨listed.1.enclosed wide lower upper, listed.2⟩

end Extents

namespace Traces

variable {first : Nat} {extent : Result → Nat → Prop}

/-! ### Single steps -/

theorem mono {action : Parse Result} {weaker : Result → Nat → Prop}
    (traces : Traces row first action extent)
    (implies : ∀ result last, first ≤ last → extent result last → weaker result last) :
    Traces row first action weaker := by
  intro cursor here
  obtain ⟨last, le, there, reads⟩ := traces cursor here
  exact ⟨last, le, there, fun result ran => implies _ _ le (reads result ran)⟩

theorem pure {result : Result} (here : extent result first) :
    Traces row first (Pure.pure result) extent := by
  intro cursor there
  refine ⟨first, Nat.le_refl _, there, fun other same => ?_⟩
  cases same
  exact here

theorem fail : Traces row first (fail : Parse Result) extent :=
  fun _ here => ⟨first, Nat.le_refl _, here, nofun⟩

theorem look (view : Cursor → Result) :
    Traces row first (look view) fun _ last => last = first :=
  fun _ here => ⟨first, Nat.le_refl _, here, fun _ _ => rfl⟩

theorem report (code : ErrorCode) (message : String) (span : Span) :
    Traces row first (report code message span) fun _ last => last = first :=
  fun _ here => ⟨first, Nat.le_refl _, here, fun _ _ => rfl⟩

theorem eat {kind : TokenKind} (real : kind ≠ .endOfFile) :
    Traces row first (eat kind) fun took last =>
      took = true → first < row.tokens.length ∧ last = first + 1 := by
  intro cursor here
  rw [Parse.eat]
  split
  · next found =>
      obtain ⟨inside, there⟩ := here.taking (Cursor.at_end_of_check real found)
      exact ⟨first + 1, Nat.le_succ _, there, fun _ _ _ => ⟨inside, rfl⟩⟩
  · refine ⟨first, Nat.le_refl _, here, fun took same yes => ?_⟩
    cases same
    cases yes

/-! ### One action after another -/

theorem bind {action : Parse Other} {next : Other → Parse Result} {before : Other → Nat → Prop}
    (former : Traces row first action before)
    (latter : ∀ result middle, first ≤ middle → before result middle →
      Traces row middle (next result) extent) : Traces row first (action >>= next) extent := by
  intro cursor here
  obtain ⟨middle, le, there, reads⟩ := former cursor here
  rcases bind_cases action next cursor with ⟨after, ran, whole⟩ | ⟨result, after, ran, whole⟩
  · rw [ran] at there
    rw [whole]
    exact ⟨middle, le, there, nofun⟩
  · rw [ran] at there reads
    obtain ⟨last, le', final, readsOn⟩ := latter result middle le (reads result rfl) after there
    rw [whole]
    exact ⟨last, Nat.le_trans le le', final, readsOn⟩

theorem looking {view : Cursor → Other} {next : Other → Parse Result}
    (goesOn : ∀ result, Traces row first (next result) extent) :
    Traces row first (Parse.look view >>= next) extent :=
  fun cursor here => goesOn (view cursor) cursor here

/-- The span at which a construct starts is that of its first token, if there is one. -/
theorem starting {next : Span → Parse Result}
    (goesOn : ∀ start, (first < row.tokens.length → row.Stretch first (first + 1) start) →
      Traces row first (next start) extent) : Traces row first (currentSpan >>= next) extent :=
  fun cursor here => goesOn cursor.span here.next_token cursor here

theorem starting_behind {before : Nat} (behind : before + 1 = first) {next : Span → Parse Result}
    (goesOn : ∀ start, row.Stretch before first start → Traces row first (next start) extent) :
    Traces row first (previousSpan >>= next) extent :=
  fun cursor here => goesOn cursor.previous (here.last behind) cursor here

/-- The span from the start of a stretch to the last token. -/
theorem spanning {i j : Nat} {start : Span} (begins : row.Stretch i j start) (le : j ≤ first)
    {next : Span → Parse Result}
    (goesOn : ∀ span, row.Stretch i first span → Traces row first (next span) extent) :
    Traces row first (spanFrom start >>= next) extent := by
  intro cursor here
  have some := begins.lt
  have last : row.Stretch (first - 1) first cursor.previous := here.last (by omega)
  exact goesOn _ (begins.cover last (by omega) le) cursor here

/-- What a branch gives is known to what follows. -/
theorem given {result : Other} {next : Other → Parse Result}
    (goesOn : Traces row first (next result) extent) :
    Traces row first (Pure.pure result >>= next) extent :=
  goesOn

theorem ite {condition : Prop} [Decidable condition] {yes no : Parse Result}
    (holds : condition → Traces row first yes extent)
    (fails : ¬condition → Traces row first no extent) :
    Traces row first (if condition then yes else no) extent := by
  split
  · next h => exact holds h
  · next h => exact fails h

theorem unexpected (message : String) :
    Traces row first (unexpected message : Parse Result) extent :=
  .looking fun _ => .bind (.report _ _ _) fun _ _ _ _ => .fail

theorem unexpected_first (message : String) (next : Other → Parse Result) :
    Traces row first (Parse.unexpected message >>= next) extent :=
  fun cursor here => unexpected message cursor here

theorem expect {kind : TokenKind} (real : kind ≠ .endOfFile) :
    Traces row first (expect kind) fun _ last => first < row.tokens.length ∧ last = first + 1 := by
  refine .bind (.eat real) fun took middle _ ate => .ite (fun yes => ?_) fun _ =>
    .looking fun _ => .unexpected _
  refine (look _).mono fun _ last _ same => ?_
  rw [same]
  exact ate yes

theorem expect_mark (sign : Mark) : Traces row first (Parse.expect (.mark sign)) fun _ last =>
    first < row.tokens.length ∧ last = first + 1 :=
  .expect TokenKind.noConfusion

theorem expect_keyword (word : Keyword) :
    Traces row first (Parse.expect (.keyword word)) fun _ last =>
      first < row.tokens.length ∧ last = first + 1 :=
  .expect TokenKind.noConfusion

theorem word (spelling : String) : Traces row first (word spelling) fun _ _ => True :=
  .bind (.eat TokenKind.noConfusion) fun _ _ _ _ => .ite
    (fun _ => (look _).mono fun _ _ _ _ => trivial)
    fun _ => .looking fun _ => .unexpected _

theorem identifier :
    Traces row first identifier (Placed row Ident.span (fun _ => True) first) := by
  intro cursor here
  rcases identifier_cases cursor with ⟨name, found, ran⟩ | ⟨message, ran⟩
  · obtain ⟨inside, there⟩ :=
      here.taking (Cursor.at_end_of_check TokenKind.noConfusion found)
    rw [ran]
    refine ⟨first + 1, Nat.le_succ _, there, fun ident same => ⟨?_, trivial⟩⟩
    cases same
    exact (there.last rfl).inside (Nat.le_refl _) (Nat.le_refl _)
  · rw [ran]
    exact ⟨first, Nat.le_refl _, here, nofun⟩

/-! ### Repetition -/

theorem with_fuel {action : Nat → Parse Result}
    (traces : ∀ fuel, Traces row first (action fuel) extent) :
    Traces row first (withFuel action) extent :=
  fun cursor here => traces _ cursor here

section Repetition

variable {element : Parse Node} {span : Node → Span} {nested : Node → Prop}

/-- An element may start with the token that leads it. -/
theorem led {lead : TokenKind} (real : lead ≠ .endOfFile) (stop : Cursor → Bool)
    (traces : ∀ lead, Traces row (lead + 1) element (Placed row span nested lead)) :
    Traces row first (withFuel (led lead stop element)) (Listed row span nested first) := by
  refine .with_fuel fun fuel => ?_
  induction fuel generalizing first with
  | zero => exact .fail
  | succ fuel ih =>
      refine .bind (.eat real) fun took middle le ate => .ite (fun yes => ?_) fun _ => .pure (.nil le)
      obtain ⟨_, rfl⟩ := ate yes
      refine .looking fun stopped => .ite (fun _ => .pure (.nil le)) fun _ => ?_
      refine .bind (traces first) fun node _ _ placed => ?_
      refine .bind ih fun nodes _ _ listed => ?_
      exact .pure (.cons placed listed)

theorem led_plain {lead : TokenKind} (real : lead ≠ .endOfFile) (stop : Cursor → Bool)
    (traces : ∀ first, Traces row first element (Placed row span nested first)) :
    Traces row first (withFuel (Parse.led lead stop element)) (Listed row span nested first) := by
  refine .led real stop fun lead => ?_
  exact (traces (lead + 1)).mono fun _ _ _ placed => placed.mono (Nat.le_succ _) (Nat.le_refl _)

theorem up_to {close : TokenKind}
    (traces : ∀ first, Traces row first element (Placed row span nested first)) :
    Traces row first (withFuel (upTo close element)) (Listed row span nested first) := by
  refine .with_fuel fun fuel => ?_
  induction fuel generalizing first with
  | zero => exact .fail
  | succ fuel ih =>
      refine .looking fun stopped => .ite (fun _ => .pure (.nil (Nat.le_refl _))) fun _ => ?_
      refine .bind (traces first) fun node _ _ placed => ?_
      refine .bind (.eat TokenKind.noConfusion) fun _ _ between _ => .ite (fun _ => ?_) fun _ => ?_
      · refine .bind ih fun nodes _ _ listed => ?_
        exact .pure (.cons (placed.mono (Nat.le_refl _) between) listed)
      · exact .pure (.cons (placed.mono (Nat.le_refl _) between) (.nil (Nat.le_refl _)))

end Repetition

/-! ### Blocks -/

section Blocks

variable {step : State → Parse State} {between : State → Nat → Prop}

/-- A broken member leaves a state that was in place before it. -/
theorem members
    (traces : ∀ state middle, between state middle → Traces row middle (step state) between)
    (widens : ∀ state {middle last}, middle ≤ last → between state middle → between state last)
    (fuel : Nat) {state : State} (held : between state first) :
    Traces row first (members step fuel state) between := by
  intro cursor here
  have stopped := members_hold step (fun state cursor => ∃ middle, first ≤ middle ∧
    cursor.At row middle ∧ between state middle) ?reads ?skips fuel state cursor
    ⟨first, Nat.le_refl _, here, held⟩
  · obtain ⟨last, ⟨middle, le, final, fits⟩, only⟩ := stopped
    exact ⟨middle, le, final, fun read same => only read same ▸ fits⟩
  case reads =>
    rintro state before next after _ ⟨middle, le, here, held⟩ ran
    obtain ⟨later, le', there, reads⟩ := traces state middle held before here
    rw [ran] at there reads
    exact ⟨later, Nat.le_trans le le', there, reads next rfl⟩
  case skips =>
    rintro state before after _ ⟨middle, le, here, held⟩ ran
    obtain ⟨broken, le', there, _⟩ := traces state middle held before here
    rw [ran] at there
    obtain ⟨later, le'', skipped⟩ := there.skip_member 0
    have reached := Nat.le_trans le' le''
    exact ⟨later, Nat.le_trans le reached, skipped, widens state reached held⟩

theorem closing (opened : Span) : Traces row first (closing opened) fun _ _ => True :=
  .bind (.eat TokenKind.noConfusion) fun _ _ _ _ => .ite
    (fun _ => .pure trivial)
    fun _ => .bind (.report _ _ _) fun _ _ _ _ => .fail

theorem block
    (traces : ∀ state middle, between state middle → Traces row middle (step state) between)
    (widens : ∀ state {middle last}, middle ≤ last → between state middle → between state last)
    {initial : State} (held : between initial first) :
    Traces row first (block step initial) between := by
  refine .bind (.expect_mark _) fun opened _ le _ => ?_
  refine .bind (.with_fuel fun fuel => .members traces widens fuel (widens _ le held))
    fun read _ _ reads => ?_
  refine .bind (.closing opened) fun _ _ le' _ => ?_
  exact .pure (widens read le' reads)

end Blocks

theorem list_block {member : Parse Node} {span : Node → Span} {nested : Node → Prop}
    (traces : ∀ first, Traces row first member (Placed row span nested first)) :
    Traces row first (listBlock member) (Listed row span nested first) := by
  apply Traces.block
  · intro collected middle listed
    refine .bind (traces middle) fun node _ _ placed => ?_
    exact .pure (listed.concat placed)
  · intro collected middle last le listed
    exact listed.mono (Nat.le_refl _) le
  · exact .nil (Nat.le_refl _)

end Traces

end Parse

end Composer
