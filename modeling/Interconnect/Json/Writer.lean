import Interconnect.Json.Value

/-!
# Writing JSON

A value is written either compactly, without blanks, or over several lines with two blanks for
each level.  Strings escape quotes, backslashes and controls, and hold every other character as it
is.
-/

namespace Interconnect.Json

/-- How much room a written value takes. -/
inductive Layout
  | compact
  | indented
  deriving DecidableEq, Repr

namespace Layout

/-- Starts the line of an item at the given depth. -/
def startLine (layout : Layout) (depth : Nat) (out : String) : String :=
  match layout with
  | compact => out
  | indented => (2 * depth).repeat (·.push ' ') (out.push '\n')

def colon : Layout → String
  | compact => ":"
  | indented => ": "

end Layout

def hexDigit (n : Nat) : Char :=
  Nat.digitChar (n % 16)

def unicodeEscape (code : Nat) : List Char :=
  ['\\', 'u', hexDigit (code / 4096), hexDigit (code / 256), hexDigit (code / 16), hexDigit code]

def escapeChar (c : Char) : List Char :=
  if c = '"' then ['\\', '"']
  else if c = '\\' then ['\\', '\\']
  else if c = '\x08' then ['\\', 'b']
  else if c = '\x0c' then ['\\', 'f']
  else if c = '\n' then ['\\', 'n']
  else if c = '\r' then ['\\', 'r']
  else if c = '\t' then ['\\', 't']
  else if c.toNat < 0x20 then unicodeEscape c.toNat
  else [c]

def Piece.escape : Piece → List Char
  | char c => escapeChar c
  | high bits => unicodeEscape (0xD800 + bits)
  | low bits => unicodeEscape (0xDC00 + bits)

def pushAll (out : String) (cs : List Char) : String :=
  cs.foldl String.push out

def writeString (out : String) (spelling : Spelling) : String :=
  (spelling.foldl (fun out piece => pushAll out piece.escape) (out.push '"')).push '"'

namespace Numeral

def fractionChars (numeral : Numeral) : List Char :=
  if numeral.fraction.isEmpty then [] else '.' :: numeral.fraction

def exponentChars (numeral : Numeral) : List Char :=
  if numeral.exponent.isEmpty then []
  else if numeral.exponentNegative then 'e' :: '-' :: numeral.exponent
  else 'e' :: numeral.exponent

def chars (numeral : Numeral) : List Char :=
  (if numeral.negative then ['-'] else []) ++ numeral.whole ++ numeral.fractionChars ++
    numeral.exponentChars

/-- The numeral of a natural number. -/
def ofNat (n : Nat) : Numeral :=
  ⟨false, Nat.toDigits 10 n, [], false, []⟩

/-- The numeral of an integer. -/
def ofInt (i : Int) : Numeral :=
  { ofNat i.natAbs with negative := i < 0 }

end Numeral

mutual

/-- Appends a value at the given depth. -/
def write (layout : Layout) (depth : Nat) (out : String) : Value → String
  | .null => out ++ "null"
  | .bool true => out ++ "true"
  | .bool false => out ++ "false"
  | .number numeral => pushAll out numeral.chars
  | .string spelling => writeString out spelling
  | .array [] _ => out ++ "[]"
  | .array (item :: items) _ =>
    let out := writeItems layout (depth + 1) (out.push '[') (item :: items)
    (layout.startLine depth out).push ']'
  | .object [] _ => out ++ "\x7b\x7d"
  | .object (member :: members) _ =>
    let out := writeMembers layout (depth + 1) (out.push '\x7b') (member :: members)
    (layout.startLine depth out).push '\x7d'

/-- Appends the items of an array, with a comma after each but the last. -/
def writeItems (layout : Layout) (depth : Nat) (out : String) : List Value → String
  | [] => out
  | [item] => write layout depth (layout.startLine depth out) item
  | item :: items =>
    writeItems layout depth ((write layout depth (layout.startLine depth out) item).push ',') items

/-- Appends the members of an object, with a comma after each but the last. -/
def writeMembers (layout : Layout) (depth : Nat) (out : String) : List Member → String
  | [] => out
  | [(key, value)] =>
    write layout depth (writeString (layout.startLine depth out) key ++ layout.colon) value
  | (key, value) :: members =>
    writeMembers layout depth
      ((write layout depth (writeString (layout.startLine depth out) key ++ layout.colon)
        value).push ',') members

end

def Value.compact (value : Value) : String :=
  write .compact 0 "" value

def Value.indented (value : Value) : String :=
  write .indented 0 "" value

end Interconnect.Json
