/-!
# The shortest decimal that reads back

A binary64 number stands for every real that rounds to it.  Among the decimals in that interval
`shortest?` picks one with the fewest digits, and of those the nearest to the number itself.  All
arithmetic is exact: a number is a quotient of natural numbers, and a decimal is a count of units
of a power of ten.
-/

namespace Interconnect.Decimal

/-- A positive decimal: its significant digits, the first of which is not zero, and the power of
ten that the first digit counts. -/
structure Scientific where
  digits : List Char
  exponent : Int
  deriving DecidableEq, Repr

/-- The reals that round to a positive binary64 number, over a common denominator.  The ends belong
to the interval exactly when the significand is even. -/
structure Interval where
  low : Nat
  value : Nat
  high : Nat
  denominator : Nat
  closed : Bool
  deriving DecidableEq, Repr

namespace Interval

/-- The interval of `significand * 2 ^ exponent`.  Below a power of two the next number lies only
half as far away. -/
def ofBinary (significand : Nat) (exponent : Int) (powerOfTwo : Bool) : Interval :=
  let unit := Nat.pow 2 exponent.toNat
  let middle := 4 * significand * unit
  { low := middle - (if powerOfTwo then unit else 2 * unit)
    value := middle
    high := middle + 2 * unit
    denominator := 4 * Nat.pow 2 (-exponent).toNat
    closed := significand % 2 == 0 }

/-- The interval of the number with the given bits, apart from its sign; `none` for zero,
infinities and values that are no numbers. -/
def ofBits? (bits : UInt64) : Option Interval :=
  let mantissa := (bits &&& 0xFFFFFFFFFFFFF).toNat
  let field := (bits >>> 52 &&& 0x7FF).toNat
  if field = 0x7FF then none
  else if field = 0 then
    if mantissa = 0 then none else some (ofBinary mantissa (-1074) false)
  else
    let powerOfTwo := mantissa == 0 && field != 1
    some (ofBinary (0x10000000000000 + mantissa) ((field : Int) - 1075) powerOfTwo)

/-- The power of ten that the first digit of the number counts. -/
def exponent (interval : Interval) : Int :=
  if interval.denominator ≤ interval.value then
    (Nat.toDigits 10 (interval.value / interval.denominator)).length - 1
  else
    let isReached (n : Nat) : Bool := interval.denominator ≤ interval.value * Nat.pow 10 n
    -- No positive number of this format lies below `10 ^ (-324)`.
    match (List.range 325).find? isReached with
    | some n => -(n : Int)
    | none => -325

/-- Whether `count` units of `10 ^ scale` lie in the interval. -/
def contains (interval : Interval) (count : Nat) (scale : Int) : Bool :=
  let point := count * Nat.pow 10 scale.toNat * interval.denominator
  let low := interval.low * Nat.pow 10 (-scale).toNat
  let high := interval.high * Nat.pow 10 (-scale).toNat
  if interval.closed then low ≤ point && point ≤ high else low < point && point < high

/-- The best decimal with `count` digits: the number lies between two neighbours on that grid, and
of two that are equally near the even one is better. -/
def candidate? (interval : Interval) (count : Nat) : Option (Nat × Int) :=
  let scale := interval.exponent - (count - 1 : Nat)
  let unit := Nat.pow 10 scale.toNat * interval.denominator
  let value := interval.value * Nat.pow 10 (-scale).toNat
  let below := value / unit
  let twiceAbove := 2 * (value % unit)
  let lowerIsBetter := twiceAbove < unit || (twiceAbove == unit && below % 2 == 0)
  let ordered := if lowerIsBetter then [below, below + 1] else [below + 1, below]
  (ordered.find? (interval.contains · scale)).map (·, scale)

end Interval

/-- The digits of a count without trailing zeros. -/
def significantDigits (count : Nat) : List Char :=
  ((Nat.toDigits 10 count).reverse.dropWhile (· == '0')).reverse

def shortest? (bits : UInt64) : Option Scientific := do
  let interval ← Interval.ofBits? bits
  -- Seventeen digits always tell two numbers of this format apart.
  let (count, scale) ← (List.range' 1 17).findSome? interval.candidate?
  return ⟨significantDigits count, scale + (Nat.toDigits 10 count).length - 1⟩

end Interconnect.Decimal
