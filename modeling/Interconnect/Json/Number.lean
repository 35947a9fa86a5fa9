import Interconnect.Decimal.Shortest
import Interconnect.Json.Value
import Interconnect.Word

/-!
# The numbers that numerals stand for

A numeral without fraction and exponent is an integer if it fits a 64-bit word: unsigned, or signed
below zero.  Any other numeral is a binary64 number.  Its value is found from as many leading
digits as fit a word, scaled in binary64 arithmetic by the power of ten that the remaining digits
and the exponent make up.
-/

namespace Interconnect.Json

inductive Number
  | unsigned (n : UInt64)
  | negative (i : Int64)
  /-- A binary64 number, by its bits. -/
  | float (bits : UInt64)
  deriving DecidableEq, Repr

namespace Numeral

def magnitude (numeral : Numeral) : Nat :=
  Nat.ofDigitChars 10 numeral.whole 0

def isInteger (numeral : Numeral) : Bool :=
  numeral.fraction.isEmpty && numeral.exponent.isEmpty

/-- The mathematical value of an integer numeral. -/
def toInt (numeral : Numeral) : Int :=
  if numeral.negative then -numeral.magnitude else numeral.magnitude

/-- Appends digits to a significand as long as it stays a word, and returns the digits left. -/
def absorb (significand : Nat) : List Char → Nat × List Char
  | [] => (significand, [])
  | digit :: digits =>
    let longer := significand * 10 + (digit.toNat - '0'.toNat)
    if longer < UInt64.size then absorb longer digits else (significand, digit :: digits)

/-- Scales by a power of ten, at most 308 powers at a time; `none` when the result is too large. -/
def scale (x : Float) (exponent : Int) : Option Float :=
  if exponent.natAbs ≤ 308 then
    if 0 ≤ exponent then
      let scaled := x * Float.ofScientific 1 false exponent.natAbs
      if scaled.isInf then none else some scaled
    else
      some (x / Float.ofScientific 1 false exponent.natAbs)
  else if x == 0 then some x
  else if 0 ≤ exponent then none
  else scale (x / Float.ofScientific 1 false 308) (exponent + 308)
termination_by exponent.natAbs

/-- The largest exponent that is told apart from an infinite one: 31 bits all set. -/
def maxExponent : Nat := 0x7FFFFFFF

/-- The size of a numeral as a binary64 number; `none` when it is too large for one. -/
def float? (numeral : Numeral) : Option Float :=
  let (leading, wholeRest) := absorb 0 numeral.whole
  let (significand, fractionRest) := absorb leading numeral.fraction
  let shift : Int := wholeRest.length - (numeral.fraction.length - fractionRest.length : Nat)
  let exponent := Nat.ofDigitChars 10 numeral.exponent 0
  if maxExponent < exponent then
    if numeral.exponentNegative || significand == 0 then some 0 else none
  else
    let signed : Int := if numeral.exponentNegative then -exponent else exponent
    scale (UInt64.ofNat significand).toFloat (shift + signed)

/-- The number a numeral stands for; `none` when it is too large for any. -/
def number? (numeral : Numeral) : Option Number :=
  if numeral.isInteger && !numeral.negative && numeral.magnitude < UInt64.size then
    some (.unsigned (UInt64.ofNat numeral.magnitude))
  else if numeral.isInteger && numeral.negative && 0 < numeral.magnitude &&
      numeral.magnitude ≤ Word.signedSize then
    some (.negative (Int64.ofInt (-numeral.magnitude)))
  else
    numeral.float?.map fun x => .float (if numeral.negative then -x else x).toBits

end Numeral

namespace Number

/-- A positive decimal in positional notation when its first digit counts a power of ten from
`10 ^ (-5)` to `10 ^ 15`, and with an exponent otherwise. -/
def decimalText (s : Decimal.Scientific) : List Char :=
  let count : Int := s.digits.length
  if s.exponent < -5 ∨ 15 < s.exponent then
    let fraction := s.digits.drop 1
    s.digits.take 1 ++ (if fraction.isEmpty then [] else '.' :: fraction) ++
      ['e', if s.exponent < 0 then '-' else '+'] ++ Nat.toDigits 10 s.exponent.natAbs
  else if s.exponent < 0 then
    ['0', '.'] ++ List.replicate (s.exponent.natAbs - 1) '0' ++ s.digits
  else if s.exponent + 1 < count then
    s.digits.take (s.exponent.natAbs + 1) ++ '.' :: s.digits.drop (s.exponent.natAbs + 1)
  else
    s.digits ++ List.replicate (s.exponent + 1 - count).toNat '0' ++ ['.', '0']

/-- The text of a finite binary64 number. -/
def floatText (bits : UInt64) : String :=
  let sign := if bits.toNat < Word.signedSize then [] else ['-']
  let size := match Decimal.shortest? bits with
    | some decimal => decimalText decimal
    | none => ['0', '.', '0']
  String.ofList (sign ++ size)

end Number

end Interconnect.Json
