/-!
JSON values and their two written forms. Objects keep the order of their fields and numbers are
natural numbers, which is all that reports and artifacts need. The compact form has no blanks; the
spread form puts every element on a line of its own, two spaces deeper than what holds it.
-/

namespace Composer

inductive Json
  | null
  | bool (value : Bool)
  | number (value : Nat)
  | string (value : String)
  | array (items : List Json)
  | object (fields : List (String × Json))
deriving Repr, Inhabited

namespace Json

def ofOption {Value : Type} (encode : Value → Json) : Option Value → Json
  | none => null
  | some value => encode value

def ofList {Value : Type} (encode : Value → Json) (values : List Value) : Json :=
  array (values.map encode)

/-- A character inside a quoted string: quotes, backslashes and controls are escaped. -/
def escape (character : Char) : List Char :=
  if character = '"' then ['\\', '"']
  else if character = '\\' then ['\\', '\\']
  else if character = '\x08' then ['\\', 'b']
  else if character = '\x0c' then ['\\', 'f']
  else if character = '\n' then ['\\', 'n']
  else if character = '\r' then ['\\', 'r']
  else if character = '\t' then ['\\', 't']
  else if character.toNat < 0x20 then
    ['\\', 'u', '0', '0', Nat.digitChar (character.toNat / 16), Nat.digitChar (character.toNat % 16)]
  else [character]

def quote (text : String) : String :=
  "\"" ++ String.ofList (text.toList.flatMap escape) ++ "\""

mutual

def compact : Json → String
  | null => "null"
  | bool value => if value then "true" else "false"
  | number value => toString value
  | string value => quote value
  | array items => "[" ++ String.intercalate "," (compactItems items) ++ "]"
  | object fields => "\x7b" ++ String.intercalate "," (compactFields fields) ++ "\x7d"

def compactItems : List Json → List String
  | [] => []
  | item :: rest => item.compact :: compactItems rest

def compactFields : List (String × Json) → List String
  | [] => []
  | (key, value) :: rest => (quote key ++ ":" ++ value.compact) :: compactFields rest

end

def lineBreak (depth : Nat) : String := "\n" ++ String.ofList (List.replicate (2 * depth) ' ')

def bracketed (opening closing : String) (depth : Nat) : List String → String
  | [] => opening ++ closing
  | elements =>
      opening ++ lineBreak (depth + 1) ++
        String.intercalate ("," ++ lineBreak (depth + 1)) elements ++ lineBreak depth ++ closing

mutual

/-- The form with one element a line, inside `depth` levels. -/
def spreadAt (depth : Nat) : Json → String
  | null => "null"
  | bool value => if value then "true" else "false"
  | number value => toString value
  | string value => quote value
  | array items => bracketed "[" "]" depth (spreadItems (depth + 1) items)
  | object fields => bracketed "\x7b" "\x7d" depth (spreadFields (depth + 1) fields)

def spreadItems (depth : Nat) : List Json → List String
  | [] => []
  | item :: rest => item.spreadAt depth :: spreadItems depth rest

def spreadFields (depth : Nat) : List (String × Json) → List String
  | [] => []
  | (key, value) :: rest =>
      (quote key ++ ": " ++ value.spreadAt depth) :: spreadFields depth rest

end

def spread (value : Json) : String := value.spreadAt 0

end Json

end Composer
