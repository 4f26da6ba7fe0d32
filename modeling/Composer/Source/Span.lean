/-!
Positions and spans in a source text. Lines and columns count from one and columns count bytes, so
that a span of one line names a slice of that line's bytes. Both ends of a span belong to it.
-/

namespace Composer

/-- A place in a source text; both numbers count from one. -/
structure Position where
  line : Nat
  column : Nat
deriving DecidableEq, Repr, Inhabited

namespace Position

/-- Reading order: earlier line first, then earlier column. -/
instance : LE Position :=
  ⟨fun p q => p.line < q.line ∨ p.line = q.line ∧ p.column ≤ q.column⟩

instance (p q : Position) : Decidable (p ≤ q) :=
  inferInstanceAs (Decidable (p.line < q.line ∨ p.line = q.line ∧ p.column ≤ q.column))

instance : Min Position := minOfLe

instance : Max Position := maxOfLe

/-- The position after the byte `byte` read at `p`: a line feed starts the next line. -/
def after (p : Position) (byte : UInt8) : Position :=
  if byte = 0x0a then ⟨p.line + 1, 1⟩ else ⟨p.line, p.column + 1⟩

end Position

/-- A stretch of source text from `start` to `stop`, both included. -/
structure Span where
  start : Position
  stop : Position
deriving DecidableEq, Repr

namespace Span

def point (line column : Nat) : Span := ⟨⟨line, column⟩, ⟨line, column⟩⟩

/-- The first position of a text stands for "nowhere in particular". -/
instance : Inhabited Span := ⟨point 1 1⟩

def cover (a b : Span) : Span := ⟨min a.start b.start, max a.stop b.stop⟩

/-- The start of the span as `line:column`. -/
def text (s : Span) : String := toString s.start.line ++ ":" ++ toString s.start.column

end Span

end Composer
