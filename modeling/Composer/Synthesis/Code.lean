/-!
Generated code before it is text: lines and blocks. A block is a header with braces around what it
holds; each level of blocks indents by four spaces, and an empty line stays empty.
-/

namespace Composer

inductive Code
  | line (text : String)
  | block (header : String) (body : List Code)
deriving Repr, Inhabited

namespace Code

/-- A line of text, ended and indented by `depth` levels. -/
def indented (depth : Nat) (text : String) : String :=
  if text = "" then "\n"
  else String.ofList (List.replicate (4 * depth) ' ') ++ text ++ "\n"

mutual

def renderAt (depth : Nat) : Code → String
  | line text => indented depth text
  | block header body =>
      indented depth (header ++ " \x7b") ++ renderAll (depth + 1) body ++ indented depth "\x7d"

def renderAll (depth : Nat) : List Code → String
  | [] => ""
  | code :: rest => code.renderAt depth ++ renderAll depth rest

end

def render (code : Code) : String := code.renderAt 0

end Code

end Composer
