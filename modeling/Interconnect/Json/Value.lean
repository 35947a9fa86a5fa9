/-!
# JSON values, whole and cut off

A text is read into a `Value`.  Nothing that a reader may care about is lost: strings keep the
surrogates that were escaped, numbers keep their digits, and objects keep the order and repetition
of their members.  Where a text stops being JSON, the arrays and objects that were open there are
part of the value too, and say so in their `Ending`.
-/

namespace Interconnect.Json

/-- How a text fails to be JSON: it ends too early, or no continuation would mend it. -/
inductive Fault
  | truncated
  | malformed
  deriving DecidableEq, Repr

/-- The fault at a break in the text.  A value that is passed over is looked at less closely than
one that is read, and the two may see different faults in the same place. -/
structure Break where
  read : Fault
  skipped : Fault
  deriving DecidableEq, Repr

namespace Break

def truncated : Break := ⟨.truncated, .truncated⟩

def malformed : Break := ⟨.malformed, .malformed⟩

end Break

/-- A part of a string: a character, or half of a surrogate pair written as an escape.  The bits of
a half are its ten low bits. -/
inductive Piece
  | char (c : Char)
  | high (bits : Nat)
  | low (bits : Nat)
  deriving DecidableEq, Repr

/-- A string as it is spelled. -/
abbrev Spelling := List Piece

namespace Spelling

def ofString (text : String) : Spelling :=
  text.toList.map .char

/-- The character that two halves of a surrogate pair stand for. -/
def paired (high low : Nat) : Char :=
  Char.ofNat (0x10000 + high * 0x400 + low)

/-- Appends the text of a spelling; there is none when a surrogate stands alone. -/
def appendTo? (text : String) : Spelling → Option String
  | [] => some text
  | .char c :: rest => appendTo? (text.push c) rest
  | .high h :: .low l :: rest => appendTo? (text.push (paired h l)) rest
  | .high _ :: _ => none
  | .low _ :: _ => none

def text? (spelling : Spelling) : Option String :=
  appendTo? "" spelling

/-- Whether more pieces could follow and make the spelling a text. -/
def isCompletable (spelling : Spelling) : Bool :=
  (text? spelling).isSome || (text? (spelling ++ [.low 0])).isSome

end Spelling

/-- A number as it is spelled: digits before the point, digits after it, and the exponent. -/
structure Numeral where
  negative : Bool
  whole : List Char
  fraction : List Char
  exponentNegative : Bool
  exponent : List Char
  deriving DecidableEq, Repr

/-- How an array or object ends: at its bracket, or where the text breaks, with what had been read
of the next part by then. -/
inductive Ending (Rest : Type)
  | closed
  | cut (rest : Rest) (fault : Break)
  deriving DecidableEq, Repr

/-- What is left over where an array breaks: whether a comma has announced another item. -/
abbrev ArrayRest := Bool

/-- What is left over where an object breaks: the key whose value has not been read. -/
abbrev ObjectRest := Option Spelling

inductive Value
  | null
  | bool (b : Bool)
  | number (numeral : Numeral)
  | string (spelling : Spelling)
  | array (items : List Value) (ending : Ending ArrayRest)
  | object (members : List (Spelling × Value)) (ending : Ending ObjectRest)

abbrev Member := Spelling × Value

end Interconnect.Json
