import Composer.Synthesis.SourceMap
import Composer.Json.Reader
import Composer.Encoding.Report

/-!
The JSON form of source maps, written and read. Reading skips fields it does not know and refuses a
map in which a field is missing or repeated; a kind may also be written as an object with the kind as
its only key and nothing as value.
-/

namespace Composer

def SourceLink.toJson (link : SourceLink) : Json :=
  .object [("item", .string link.item), ("kind", .string link.kind.text),
    ("file", .string link.file), ("span", link.span.toJson)]

namespace SourceMap

def toJson (map : SourceMap) : Json :=
  .object [("entries", .ofList SourceLink.toJson map.links)]

def largestCoordinate : Nat := UInt32.size - 1

/-- Takes a record of which every field must be there; `complete` puts them together. -/
def readWhole {Draft Value : Type} (fields : List (Json.RecordField Draft)) (initial : Draft)
    (complete : Draft → Option Value) : Json.Reader Value := fun text => do
  let (draft, text) ← Json.readRecord fields .skipped initial text
  match complete draft with
  | some value => return (value, text)
  | none => .error .mismatched

/-- A field of a pair of values that are read one by one. -/
def pairFields {First Second : Type} (first second : String) (readFirst : Json.Reader First)
    (readSecond : Json.Reader Second) :
    List (Json.RecordField (Option First × Option Second)) :=
  [{ name := first
     isSet := fun draft => draft.1.isSome
     read := fun draft text => do
       let (value, text) ← readFirst text
       return ((some value, draft.2), text) },
   { name := second
     isSet := fun draft => draft.2.isSome
     read := fun draft text => do
       let (value, text) ← readSecond text
       return ((draft.1, some value), text) }]

def readPosition : Json.Reader Position :=
  readWhole (pairFields "line" "column" (Json.readNatural largestCoordinate)
      (Json.readNatural largestCoordinate)) (none, none)
    fun draft => do return ⟨← draft.1, ← draft.2⟩

def readSpan : Json.Reader Span :=
  readWhole (pairFields "start" "end" readPosition readPosition) (none, none)
    fun draft => do return ⟨← draft.1, ← draft.2⟩

def readKindName : Json.Reader GeneratedKind := fun text => do
  let (word, text) ← Json.readString text
  match GeneratedKind.ofText? word with
  | some kind => return (kind, text)
  | none => .error .mismatched

def readKind : Json.Reader GeneratedKind := fun text =>
  match Json.skipBlanks text with
  | 0x22 :: rest => readKindName (0x22 :: rest)
  | 0x7b :: rest => do
      let (kind, rest) ← readKindName rest
      let (_, rest) ← Json.readColon rest
      let (_, rest) ← Json.readLetters [0x6e, 0x75, 0x6c, 0x6c] (Json.skipBlanks rest)
      match Json.skipBlanks rest with
      | 0x7d :: rest => return (kind, rest)
      | [] => .error .truncated
      | _ => .error .malformed
  | [] => .error .truncated
  | _ => .error .malformed

structure LinkDraft where
  item : Option String
  kind : Option GeneratedKind
  file : Option String
  span : Option Span

def linkFields : List (Json.RecordField LinkDraft) :=
  [{ name := "item"
     isSet := fun draft => draft.item.isSome
     read := fun draft text => do
       let (value, text) ← Json.readString text
       return ({ draft with item := some value }, text) },
   { name := "kind"
     isSet := fun draft => draft.kind.isSome
     read := fun draft text => do
       let (value, text) ← readKind text
       return ({ draft with kind := some value }, text) },
   { name := "file"
     isSet := fun draft => draft.file.isSome
     read := fun draft text => do
       let (value, text) ← Json.readString text
       return ({ draft with file := some value }, text) },
   { name := "span"
     isSet := fun draft => draft.span.isSome
     read := fun draft text => do
       let (value, text) ← readSpan text
       return ({ draft with span := some value }, text) }]

def readLink : Json.Reader SourceLink :=
  readWhole linkFields ⟨none, none, none, none⟩ fun draft => do
    return ⟨← draft.item, ← draft.kind, ← draft.file, ← draft.span⟩

def mapFields : List (Json.RecordField (Option (List SourceLink))) :=
  [{ name := "entries"
     isSet := fun draft => draft.isSome
     read := fun _ text => do
       let (links, text) ← Json.readArray readLink text
       return (some links, text) }]

def ofJson? (text : String) : Option SourceMap :=
  (Json.readAll (readWhole mapFields none fun draft => draft.map SourceMap.mk) text).toOption

end SourceMap

end Composer
