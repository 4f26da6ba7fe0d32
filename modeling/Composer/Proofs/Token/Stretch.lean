import Mathlib.Order.Defs.LinearOrder
import Composer.Proofs.Source.Lines
import Composer.Token.Basic

/-!
Stretches of tokens. In a row of tokens, each of which starts behind the end of the one before, the
indices of the first token of a stretch and of the one behind it say where its span lies: to find that
a span encloses another or lies before it, numbers are compared and no positions.
-/

namespace Composer

/-! ### Positions -/

namespace Position

theorem le_trans {first second third : Position} (former : first ≤ second)
    (latter : second ≤ third) : first ≤ third := by
  change first.line < second.line ∨ _ at former
  change second.line < third.line ∨ _ at latter
  change first.line < third.line ∨ _
  omega

theorem before_iff (first second : Position) :
    first.Before second ↔ first ≤ second ∧ ¬second ≤ first := by
  change first.Before second ↔ (first.line < second.line ∨ _) ∧ ¬(second.line < first.line ∨ _)
  rw [Before]
  omega

theorem le_antisymm {first second : Position} (former : first ≤ second)
    (latter : second ≤ first) : first = second := by
  change first.line < second.line ∨ _ at former
  change second.line < first.line ∨ _ at latter
  cases first
  cases second
  simp only at former latter
  congr <;> omega

theorem le_total (first second : Position) : first ≤ second ∨ second ≤ first := by
  change (first.line < second.line ∨ _) ∨ (second.line < first.line ∨ _)
  omega

/-- Positions are in reading order, each of them before or behind any other. -/
instance : LinearOrder Position where
  lt := Before
  le_refl := le_refl
  le_trans _ _ _ := le_trans
  lt_iff_le_not_ge := before_iff
  le_antisymm _ _ := le_antisymm
  le_total := le_total
  toDecidableLE := inferInstance

end Position

/-! ### Spans in spans -/

namespace Span

/-- The inner span goes forward, and it starts and ends within the outer one. -/
structure Encloses (outer inner : Span) : Prop where
  start : outer.start ≤ inner.start
  forward : inner.start ≤ inner.stop
  stop : inner.stop ≤ outer.stop

/-- The inner spans follow one another within the outer one, and no two of them have a position in
common. -/
structure EnclosesRow (outer : Span) (inner : List Span) : Prop where
  within : ∀ span ∈ inner, outer.Encloses span
  apart : inner.Pairwise fun first second => first.stop.Before second.start

theorem Encloses.trans {outer middle inner : Span} (wide : outer.Encloses middle)
    (narrow : middle.Encloses inner) : outer.Encloses inner :=
  ⟨le_trans wide.start narrow.start, narrow.forward,
    le_trans narrow.stop wide.stop⟩

end Span

/-! ### Rows of tokens -/

structure TokenRow where
  tokens : List Token
  forward : ∀ token ∈ tokens, token.span.start ≤ token.span.stop
  apart : tokens.Pairwise fun first second => first.span.stop.Before second.span.start

namespace TokenRow

variable {row : TokenRow}

theorem start_le_start {i j : Nat} {first second : Token} (former : row.tokens[i]? = some first)
    (latter : row.tokens[j]? = some second) (le : i ≤ j) : first.span.start ≤ second.span.start := by
  rcases Nat.lt_or_eq_of_le le with lt | rfl
  · obtain ⟨inside, rfl⟩ := List.getElem?_eq_some_iff.mp former
    obtain ⟨within, rfl⟩ := List.getElem?_eq_some_iff.mp latter
    have apart := List.pairwise_iff_getElem.mp row.apart i j inside within lt
    exact le_trans (row.forward _ (List.getElem_mem inside)) (Position.le_of_before apart)
  · rw [former] at latter
    cases latter
    exact le_refl _

theorem stop_before_start {i j : Nat} {first second : Token} (former : row.tokens[i]? = some first)
    (latter : row.tokens[j]? = some second) (lt : i < j) :
    first.span.stop.Before second.span.start := by
  obtain ⟨inside, rfl⟩ := List.getElem?_eq_some_iff.mp former
  obtain ⟨within, rfl⟩ := List.getElem?_eq_some_iff.mp latter
  exact List.pairwise_iff_getElem.mp row.apart i j inside within lt

theorem stop_le_stop {i j : Nat} {first second : Token} (former : row.tokens[i]? = some first)
    (latter : row.tokens[j]? = some second) (le : i ≤ j) : first.span.stop ≤ second.span.stop := by
  rcases Nat.lt_or_eq_of_le le with lt | rfl
  · have before := stop_before_start former latter lt
    exact le_trans (Position.le_of_before before)
      (row.forward _ (List.mem_of_getElem? latter))
  · rw [former] at latter
    cases latter
    exact le_refl _

/-! ### Stretches -/

/-- The span starts with the token that has the index `first` and ends with the one before the
index `stop`. -/
structure Stretch (row : TokenRow) (first stop : Nat) (span : Span) : Prop where
  starts : ∃ token, row.tokens[first]? = some token ∧ span.start = token.span.start
  stops : ∃ last token, first ≤ last ∧ last + 1 = stop ∧ row.tokens[last]? = some token ∧
    span.stop = token.span.stop

def Inside (row : TokenRow) (first stop : Nat) (span : Span) : Prop :=
  ∃ i j, first ≤ i ∧ j ≤ stop ∧ row.Stretch i j span

namespace Stretch

variable {first stop i j : Nat} {span outer inner : Span}

theorem of_token {token : Token} (here : row.tokens[first]? = some token) :
    row.Stretch first (first + 1) token.span :=
  ⟨⟨token, here, rfl⟩, ⟨first, token, Nat.le_refl _, rfl, here, rfl⟩⟩

theorem lt (stretch : row.Stretch first stop span) : first < stop := by
  obtain ⟨last, _, le, rfl, _⟩ := stretch.stops
  exact Nat.lt_succ_of_le le

theorem le_length (stretch : row.Stretch first stop span) : stop ≤ row.tokens.length := by
  obtain ⟨last, token, _, rfl, here, _⟩ := stretch.stops
  exact (List.getElem?_eq_some_iff.mp here).1

theorem inside (stretch : row.Stretch i j span) (lower : first ≤ i) (upper : j ≤ stop) :
    row.Inside first stop span :=
  ⟨i, j, lower, upper, stretch⟩

theorem forward (stretch : row.Stretch first stop span) : span.start ≤ span.stop := by
  obtain ⟨token, here, starts⟩ := stretch.starts
  obtain ⟨last, final, le, _, there, stops⟩ := stretch.stops
  rw [starts, stops]
  exact le_trans (row.forward _ (List.mem_of_getElem? here)) (stop_le_stop here there le)

theorem encloses (wide : row.Stretch first stop outer) (narrow : row.Stretch i j inner)
    (lower : first ≤ i) (upper : j ≤ stop) : outer.Encloses inner := by
  obtain ⟨token, here, starts⟩ := wide.starts
  obtain ⟨last, final, _, rfl, there, stops⟩ := wide.stops
  obtain ⟨innerToken, innerHere, innerStarts⟩ := narrow.starts
  obtain ⟨innerLast, innerFinal, _, rfl, innerThere, innerStops⟩ := narrow.stops
  constructor
  · rw [starts, innerStarts]
    exact start_le_start here innerHere lower
  · exact narrow.forward
  · rw [stops, innerStops]
    exact stop_le_stop innerThere there (Nat.le_of_succ_le_succ upper)

theorem before (former : row.Stretch first stop outer) (latter : row.Stretch i j inner)
    (apart : stop ≤ i) : outer.stop.Before inner.start := by
  obtain ⟨last, final, _, rfl, there, stops⟩ := former.stops
  obtain ⟨token, here, starts⟩ := latter.starts
  rw [stops, starts]
  exact stop_before_start there here apart

/-- The cover of a stretch and of one that starts and ends no earlier. -/
theorem cover (former : row.Stretch first i outer) (latter : row.Stretch j stop inner)
    (starts : first ≤ j) (stops : i ≤ stop) : row.Stretch first stop (outer.cover inner) := by
  obtain ⟨token, here, start⟩ := former.starts
  obtain ⟨last, final, _, rfl, there, stopAt⟩ := former.stops
  obtain ⟨laterToken, laterHere, laterStart⟩ := latter.starts
  obtain ⟨laterLast, laterFinal, le, rfl, laterThere, laterStop⟩ := latter.stops
  have startLe : outer.start ≤ inner.start := by
    rw [start, laterStart]
    exact start_le_start here laterHere starts
  have stopLe : outer.stop ≤ inner.stop := by
    rw [stopAt, laterStop]
    exact stop_le_stop there laterThere (Nat.le_of_succ_le_succ stops)
  constructor
  · exact ⟨token, here, (min_eq_left startLe).trans start⟩
  · exact ⟨laterLast, laterFinal, Nat.le_trans starts le, rfl, laterThere,
      (max_eq_right stopLe).trans laterStop⟩

end Stretch

namespace Inside

variable {first stop i j : Nat} {span outer inner : Span}

theorem mono (inside : row.Inside i j span) (lower : first ≤ i) (upper : j ≤ stop) :
    row.Inside first stop span := by
  obtain ⟨k, l, lowerIn, upperIn, stretch⟩ := inside
  exact ⟨k, l, Nat.le_trans lower lowerIn, Nat.le_trans upperIn upper, stretch⟩

theorem lt (inside : row.Inside first stop span) : first < stop := by
  obtain ⟨k, l, lower, upper, stretch⟩ := inside
  exact Nat.lt_of_le_of_lt lower (Nat.lt_of_lt_of_le stretch.lt upper)

theorem lt_length (inside : row.Inside first stop span) : first < row.tokens.length := by
  obtain ⟨k, l, lower, upper, stretch⟩ := inside
  exact Nat.lt_of_le_of_lt lower (Nat.lt_of_lt_of_le stretch.lt stretch.le_length)

theorem enclosed (narrow : row.Inside i j inner) (wide : row.Stretch first stop outer)
    (lower : first ≤ i) (upper : j ≤ stop) : outer.Encloses inner := by
  obtain ⟨k, l, lowerIn, upperIn, stretch⟩ := narrow
  exact wide.encloses stretch (Nat.le_trans lower lowerIn) (Nat.le_trans upperIn upper)

end Inside

inductive Follows (row : TokenRow) : Nat → Nat → List Span → Prop
  | nil {first stop : Nat} (le : first ≤ stop) : Follows row first stop []
  | cons {first middle stop : Nat} {span : Span} {spans : List Span}
      (here : row.Inside first middle span) (behind : Follows row middle stop spans) :
      Follows row first stop (span :: spans)

namespace Follows

variable {first middle stop i j : Nat} {span outer : Span} {spans : List Span}

theorem le (follows : row.Follows first stop spans) : first ≤ stop := by
  induction follows with
  | nil le => exact le
  | cons here _ ih => exact Nat.le_trans (Nat.le_of_lt here.lt) ih

theorem mono (follows : row.Follows i j spans) (lower : first ≤ i) (upper : j ≤ stop) :
    row.Follows first stop spans := by
  induction follows generalizing first with
  | nil le => exact .nil (Nat.le_trans lower (Nat.le_trans le upper))
  | cons here _ ih => exact .cons (here.mono lower (Nat.le_refl _)) (ih (Nat.le_refl _) upper)

theorem concat (follows : row.Follows first middle spans) (last : row.Inside middle stop span) :
    row.Follows first stop (spans ++ [span]) := by
  induction follows with
  | nil le => exact .cons (last.mono le (Nat.le_refl _)) (.nil (Nat.le_refl _))
  | cons here _ ih => exact .cons here (ih last)

theorem within (follows : row.Follows first stop spans) :
    ∀ span ∈ spans, row.Inside first stop span := by
  induction follows with
  | nil le => exact nofun
  | cons here behind ih =>
      rw [List.forall_mem_cons]
      constructor
      · exact here.mono (Nat.le_refl _) behind.le
      · intro span member
        exact (ih span member).mono (Nat.le_of_lt here.lt) (Nat.le_refl _)

theorem apart (follows : row.Follows first stop spans) :
    spans.Pairwise fun former latter => former.stop.Before latter.start := by
  induction follows with
  | nil le => exact .nil
  | cons here behind ih =>
      refine .cons (fun span member => ?_) ih
      obtain ⟨_, _, _, upper, former⟩ := here
      obtain ⟨_, _, lower, _, latter⟩ := behind.within span member
      exact former.before latter (Nat.le_trans upper lower)

theorem enclosed (narrow : row.Follows i j spans) (wide : row.Stretch first stop outer)
    (lower : first ≤ i) (upper : j ≤ stop) : outer.EnclosesRow spans :=
  ⟨fun span member => (narrow.within span member).enclosed wide lower upper, narrow.apart⟩

end Follows

end TokenRow

end Composer
