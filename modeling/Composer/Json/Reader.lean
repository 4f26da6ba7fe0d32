import Composer.Json.Numeral

/-!
Reading JSON into records. A reader takes bytes from the front of a text and gives a value with the
rest, or the kind of the first problem in reading order: the text is `truncated`, it is `malformed`,
or it is well formed so far but `mismatched` with what was asked for. A record is written as an object
with each field at most once, or as an array of its fields in order.
-/

namespace Composer.Json

/-- What is wrong with a text, by the first problem in it. -/
inductive ReadError
  | truncated
  | malformed
  | mismatched
deriving DecidableEq, Repr

abbrev Reader (Value : Type) := List UInt8 → Except ReadError (Value × List UInt8)

variable {Value State Key : Type}

def skipBlanks (text : List UInt8) : List UInt8 :=
  text.dropWhile fun byte => byte = 0x20 || byte = 0x0a || byte = 0x09 || byte = 0x0d

def isDigit (byte : UInt8) : Bool := 0x30 ≤ byte && byte ≤ 0x39

/-! ### Words and strings -/

def readLetters : List UInt8 → Reader Unit
  | [], text => .ok ((), text)
  | _ :: _, [] => .error .truncated
  | letter :: letters, byte :: rest =>
      if byte = letter then readLetters letters rest else .error .malformed

def hexValue? (byte : UInt8) : Option Nat :=
  if isDigit byte then some (byte.toNat - 0x30)
  else if 0x61 ≤ byte ∧ byte ≤ 0x66 then some (byte.toNat - 0x61 + 10)
  else if 0x41 ≤ byte ∧ byte ≤ 0x46 then some (byte.toNat - 0x41 + 10)
  else none

def readHex : Reader Nat
  | a :: b :: c :: d :: rest =>
      match hexValue? a, hexValue? b, hexValue? c, hexValue? d with
      | some a, some b, some c, some d => .ok (((a * 16 + b) * 16 + c) * 16 + d, rest)
      | _, _, _, _ => .error .malformed
  | _ => .error .truncated

def characterBytes (code : Nat) : List UInt8 := (Char.ofNat code).toString.toUTF8.data.toList

/-- Takes the second half of a pair of surrogates, whose first half was `high`. -/
def readLowSurrogate (high : Nat) : Reader Nat
  | [] => .error .truncated
  | backslash :: rest =>
      if backslash ≠ 0x5c then .error .malformed
      else match rest with
        | [] => .error .truncated
        | letter :: rest =>
            if letter ≠ 0x75 then .error .malformed
            else do
              let (low, rest) ← readHex rest
              if 0xdc00 ≤ low ∧ low ≤ 0xdfff then
                return ((high - 0xd800) * 0x400 + (low - 0xdc00) + 0x10000, rest)
              else .error .malformed

/-- Takes a `\u` escape behind its `u`; surrogates must come in pairs. -/
def readUnicode (text : List UInt8) : Except ReadError (List UInt8 × List UInt8) := do
  let (code, rest) ← readHex text
  if 0xdc00 ≤ code ∧ code ≤ 0xdfff then .error .malformed
  else if 0xd800 ≤ code ∧ code ≤ 0xdbff then
    let (code, rest) ← readLowSurrogate code rest
    return (characterBytes code, rest)
  else return (characterBytes code, rest)

/-- Takes a `\u` escape behind its `u` where the character does not matter. -/
def skipUnicode (text : List UInt8) : Except ReadError (List UInt8 × List UInt8) := do
  let (_, rest) ← readHex text
  return ([], rest)

def escapedByte? (letter : UInt8) : Option UInt8 :=
  [((0x22 : UInt8), (0x22 : UInt8)), (0x5c, 0x5c), (0x2f, 0x2f), (0x62, 0x08), (0x66, 0x0c),
    (0x6e, 0x0a), (0x72, 0x0d), (0x74, 0x09)].lookup letter

/-- Takes a string behind its opening quote, up to and with the closing one. The `unicode` reader
takes the rest of a `\u` escape. Each round takes a byte. -/
def readStringBytes (unicode : Reader (List UInt8)) : Nat → Reader (List UInt8)
  | 0, _ => .error .truncated
  | _ + 1, [] => .error .truncated
  | fuel + 1, byte :: rest =>
      if byte = 0x22 then .ok ([], rest)
      else if byte = 0x5c then
        match rest with
        | [] => .error .truncated
        | letter :: rest =>
            if letter = 0x75 then do
              let (bytes, rest) ← unicode rest
              let (later, rest) ← readStringBytes unicode fuel rest
              return (bytes ++ later, rest)
            else match escapedByte? letter with
              | none => .error .malformed
              | some escaped => do
                  let (later, rest) ← readStringBytes unicode fuel rest
                  return (escaped :: later, rest)
      else if byte < 0x20 then .error .malformed
      else do
        let (later, rest) ← readStringBytes unicode fuel rest
        return (byte :: later, rest)

def readQuoted (text : List UInt8) : Except ReadError (String × List UInt8) := do
  let (bytes, rest) ← readStringBytes readUnicode (text.length + 1) text
  match String.fromUTF8? ⟨bytes.toArray⟩ with
  | some string => return (string, rest)
  | none => .error .malformed

def skipQuoted (text : List UInt8) : Except ReadError (Unit × List UInt8) := do
  let (_, rest) ← readStringBytes skipUnicode (text.length + 1) text
  return ((), rest)

/-! ### Numbers -/

def readDigits : Reader (List UInt8)
  | [] => .error .truncated
  | byte :: rest =>
      if isDigit byte then .ok (byte :: rest.takeWhile isDigit, rest.dropWhile isDigit)
      else .error .malformed

/-- Takes the digits before the point: a zero alone, or digits that start with another one. -/
def readIntegerPart : Reader (List UInt8)
  | [] => .error .truncated
  | byte :: rest =>
      if byte = 0x30 then
        match rest with
        | next :: _ => if isDigit next then .error .malformed else .ok ([byte], rest)
        | [] => .ok ([byte], rest)
      else readDigits (byte :: rest)

def readDecimals : Reader (Option (List UInt8))
  | byte :: rest =>
      if byte = 0x2e then do
        let (digits, rest) ← readDigits rest
        return (some digits, rest)
      else .ok (none, byte :: rest)
  | [] => .ok (none, [])

/-- Takes the digits of an exponent, with their sign. -/
def readSignedDigits : Reader Int
  | [] => .error .truncated
  | byte :: rest =>
      if byte = 0x2d then do
        let (digits, rest) ← readDigits rest
        return (-(digitsValue digits : Int), rest)
      else do
        let (digits, rest) ← readDigits (if byte = 0x2b then rest else byte :: rest)
        return ((digitsValue digits : Int), rest)

def readExponent : Reader (Option Int)
  | byte :: rest =>
      if byte = 0x65 ∨ byte = 0x45 then do
        let (exponent, rest) ← readSignedDigits rest
        return (some exponent, rest)
      else .ok (none, byte :: rest)
  | [] => .ok (none, [])

def readNumeral (text : List UInt8) : Except ReadError (Numeral × List UInt8) := do
  let (negative, text) := match text with
    | byte :: rest => if byte = 0x2d then (true, rest) else (false, byte :: rest)
    | [] => (false, [])
  let (whole, text) ← readIntegerPart text
  let (decimals, text) ← readDecimals text
  let (exponent, text) ← readExponent text
  return ({ negative
            whole
            decimals := decimals.getD []
            exponent := exponent.getD 0
            fractional := decimals.isSome || exponent.isSome }, text)

/-- Takes a number that is not too large for double precision. -/
def readNumber (text : List UInt8) : Except ReadError (Numeral × List UInt8) := do
  let (number, rest) ← readNumeral text
  if number.overflows then .error .malformed else return (number, rest)

/-! ### Values of a wanted kind -/

/-- The problem with a value of another kind than the wanted one. Words, numbers and strings are read
first, and a problem inside them comes before the mismatch. -/
def mismatch (text : List UInt8) : ReadError :=
  let after (result : Except ReadError Unit) : ReadError :=
    match result with
    | .ok _ => .mismatched
    | .error problem => problem
  match text with
  | [] => .truncated
  | byte :: rest =>
      if byte = 0x6e then after ((readLetters [0x75, 0x6c, 0x6c] rest).map fun _ => ())
      else if byte = 0x74 then after ((readLetters [0x72, 0x75, 0x65] rest).map fun _ => ())
      else if byte = 0x66 then after ((readLetters [0x61, 0x6c, 0x73, 0x65] rest).map fun _ => ())
      else if byte = 0x2d ∨ isDigit byte then after ((readNumber (byte :: rest)).map fun _ => ())
      else if byte = 0x22 then after ((readQuoted rest).map fun _ => ())
      else if byte = 0x5b ∨ byte = 0x7b then .mismatched
      else .malformed

def readString : Reader String := fun text =>
  match skipBlanks text with
  | 0x22 :: rest => readQuoted rest
  | other => .error (mismatch other)

def readNatural (bound : Nat) : Reader Nat := fun text =>
  match skipBlanks text with
  | [] => .error .truncated
  | byte :: rest =>
      if byte = 0x2d ∨ isDigit byte then do
        let (number, rest) ← readNumber (byte :: rest)
        match number.natural? with
        | some value => if value ≤ bound then return (value, rest) else .error .mismatched
        | none => .error .mismatched
      else .error (mismatch (byte :: rest))

def readColon : Reader Unit := fun text =>
  match skipBlanks text with
  | [] => .error .truncated
  | byte :: rest => if byte = 0x3a then .ok ((), rest) else .error .malformed

/-! ### Arrays and objects -/

/-- Finds the next element of an array: `false` before the closing bracket, else the comma is taken
and an element follows. -/
def nextElement (first : Bool) : Reader Bool := fun text =>
  match skipBlanks text with
  | [] => .error .truncated
  | byte :: rest =>
      if byte = 0x5d then .ok (false, byte :: rest)
      else if first then .ok (true, byte :: rest)
      else if byte = 0x2c then
        match skipBlanks rest with
        | [] => .error .truncated
        | next :: rest => if next = 0x5d then .error .malformed else .ok (true, next :: rest)
      else .error .malformed

def closeArray : Reader Unit := fun text =>
  match skipBlanks text with
  | [] => .error .truncated
  | byte :: rest => if byte = 0x5d then .ok ((), rest) else .error .malformed

/-- Finds the next key of an object: `none` behind the closing brace. -/
def nextKey (quoted : Reader Value) (first : Bool) : Reader (Option Value) := fun text => do
  let key (text : List UInt8) : Except ReadError (Option Value × List UInt8) :=
    match text with
    | [] => .error .truncated
    | byte :: rest =>
        if byte = 0x22 then do
          let (key, rest) ← quoted rest
          return (some key, rest)
        else .error .malformed
  match skipBlanks text with
  | [] => .error .truncated
  | byte :: rest =>
      if byte = 0x7d then .ok (none, rest)
      else if first then key (byte :: rest)
      else if byte = 0x2c then key (skipBlanks rest)
      else .error .malformed

/-- Takes the elements of an array and its closing bracket. Each round takes a byte. -/
def readElements (element : Reader Value) : Nat → Bool → Reader (List Value)
  | 0, _, _ => .error .truncated
  | fuel + 1, first, text => do
      let (more, text) ← nextElement first text
      if more then
        let (value, text) ← element text
        let (values, text) ← readElements element fuel false text
        return (value :: values, text)
      else
        let (_, text) ← closeArray text
        return ([], text)

def readArray (element : Reader Value) : Reader (List Value) := fun text =>
  match skipBlanks text with
  | 0x5b :: rest => readElements element (rest.length + 1) true rest
  | other => .error (mismatch other)

/-- Takes the fields of an object and its closing brace. A field is handed to `field` with its key
and the text behind the key. Each round takes a byte. -/
def readFields (quoted : Reader Key) (field : State → Key → Reader State) :
    Nat → Bool → State → Reader State
  | 0, _, _, _ => .error .truncated
  | fuel + 1, first, state, text => do
      match ← nextKey quoted first text with
      | (none, text) => return (state, text)
      | (some key, text) =>
          let (state, text) ← field state key text
          readFields quoted field fuel false state text

/-- Takes any value nested less than `depth` deep and drops it; only its form is checked. -/
def skipWithin : Nat → Reader Unit
  | 0, _ => .error .truncated
  | depth + 1, text =>
      match skipBlanks text with
      | [] => .error .truncated
      | byte :: rest =>
          if byte = 0x6e then readLetters [0x75, 0x6c, 0x6c] rest
          else if byte = 0x74 then readLetters [0x72, 0x75, 0x65] rest
          else if byte = 0x66 then readLetters [0x61, 0x6c, 0x73, 0x65] rest
          else if byte = 0x2d ∨ isDigit byte then do
            let (_, rest) ← readNumeral (byte :: rest)
            return ((), rest)
          else if byte = 0x22 then skipQuoted rest
          else if byte = 0x5b then do
            let (_, rest) ← readElements (skipWithin depth) (rest.length + 1) true rest
            return ((), rest)
          else if byte = 0x7b then
            let member (_ _ : Unit) : Reader Unit := fun text => do
              let (_, text) ← readColon text
              skipWithin depth text
            readFields skipQuoted member (rest.length + 1) true () rest
          else .error .malformed

/-- Takes any value and drops it. Each level of nesting takes a byte. -/
def skipValue : Reader Unit := fun text => skipWithin (text.length + 1) text

/-! ### Records -/

structure RecordField (State : Type) where
  name : String
  isSet : State → Bool
  read : State → Reader State

/-- What a record does with a key that is none of its fields. -/
inductive UnknownKey
  | refused
  | skipped
deriving DecidableEq, Repr

/-- Takes the field of an object that has the given key; a field occurs once. -/
def readKeyed (fields : List (RecordField State)) (unknown : UnknownKey) (state : State)
    (key : String) : Reader State := fun text =>
  match fields.find? (·.name = key), unknown with
  | some field, _ =>
      if field.isSet state then .error .mismatched
      else do
        let (_, text) ← readColon text
        field.read state text
  | none, .refused => .error .mismatched
  | none, .skipped => do
      let (_, text) ← readColon text
      let (_, text) ← skipValue text
      return (state, text)

/-- Takes the elements of an array as the fields of a record, in order. -/
def readPositional : List (RecordField State) → Bool → State → Reader State
  | [], _, state, text => .ok (state, text)
  | field :: fields, first, state, text => do
      let (more, text) ← nextElement first text
      if more then
        let (state, text) ← field.read state text
        readPositional fields false state text
      else return (state, text)

/-- Takes a record, written as an object or as an array. Fields may be missing. -/
def readRecord (fields : List (RecordField State)) (unknown : UnknownKey) (initial : State) :
    Reader State := fun text =>
  match skipBlanks text with
  | [] => .error .truncated
  | byte :: rest =>
      if byte = 0x5b then do
        let (state, rest) ← readPositional fields true initial rest
        let (_, rest) ← closeArray rest
        return (state, rest)
      else if byte = 0x7b then
        readFields readQuoted (readKeyed fields unknown) (rest.length + 1) true initial rest
      else .error (mismatch (byte :: rest))

/-- Reads a text as one value with nothing but blanks around it. -/
def readAll (reader : Reader Value) (text : String) : Except ReadError Value := do
  let (value, rest) ← reader text.toUTF8.data.toList
  if skipBlanks rest = [] then return value else .error .malformed

end Composer.Json
