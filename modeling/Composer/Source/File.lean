import Composer.Source.Span

/-!
A named source text with its line table. The table lists the byte offset at which each line starts;
a line is cut out of the bytes between two entries, less the line feed and trailing carriage returns.
`line?` answers for the lines `1 .. lineCount` and for no other number: a cut at line feeds never
splits a character, so the decoding of the slice cannot fail on the bytes of a text.
-/

namespace Composer

structure SourceFile where
  name : String
  text : String
deriving DecidableEq, Repr

/-- The offsets just behind each line feed, where the list starts at `offset`. -/
def offsetsAfterLineFeeds (offset : Nat) : List UInt8 → List Nat
  | [] => []
  | byte :: rest =>
      if byte = 0x0a then (offset + 1) :: offsetsAfterLineFeeds (offset + 1) rest
      else offsetsAfterLineFeeds (offset + 1) rest

def lineStarts (bytes : List UInt8) : List Nat := 0 :: offsetsAfterLineFeeds 0 bytes

def trimCarriageReturns (bytes : List UInt8) : List UInt8 :=
  (bytes.reverse.dropWhile (· = 0x0d)).reverse

namespace SourceFile

def bytes (file : SourceFile) : List UInt8 := file.text.toUTF8.data.toList

def lineCount (file : SourceFile) : Nat := (lineStarts file.bytes).length

/-- The bytes of the line with the given index from zero, without its end. -/
def lineBytes? (bytes : List UInt8) (index : Nat) : Option (List UInt8) := do
  let starts := lineStarts bytes
  let start ← starts[index]?
  let stop := match starts[index + 1]? with
    | some next => next - 1
    | none => bytes.length
  return trimCarriageReturns ((bytes.drop start).take (stop - start))

/-- The text of a line, counted from one, without its end; `none` for a line the text does not have. -/
def line? (file : SourceFile) : Nat → Option String
  | 0 => none
  | index + 1 => do
      let bytes ← lineBytes? file.bytes index
      String.fromUTF8? ⟨bytes.toArray⟩

/-- The text of the line on which a span starts, empty where there is none. -/
def sourceLine (file : SourceFile) (span : Span) : String :=
  (file.line? span.start.line).getD ""

end SourceFile

end Composer
