/-
The shortest decimal that reads back as a given binary number.

A finite number is m * 2^q. The decimals that round to it are those in the
interval between the midpoints to its two neighbours; the ends belong to it
when m is even. For 1, 2, ... digits the two points of the decimal grid next
to the number are tested, all in exact arithmetic on naturals. The first
grid with a point in the interval wins; of two such points the nearer one,
and of two equally near ones the even one.
-/
namespace GrammarExplorer

/-- A decimal number: `coefficient * 10 ^ exponent`, with a sign of its own,
so that zero has one too. -/
structure Decimal where
  negative : Bool
  coefficient : Nat
  exponent : Int
  deriving Repr, DecidableEq

namespace Decimal

/-- A positive binary number in units that also hold the ends of its
interval: it is `4 * m`, the ends are `low` and `high`, all times
`numerator / denominator`. -/
structure Interval where
  value : Nat
  low : Nat
  high : Nat
  numerator : Nat
  denominator : Nat
  closed : Bool

/-- The interval of `m * 2 ^ q`. Below a power of two the neighbour is
nearer, save at the bottom of the range. -/
def Interval.ofBinary (m : Nat) (q : Int) (narrowBelow : Bool) : Interval where
  value := 4 * m
  low := 4 * m - (if narrowBelow then 1 else 2)
  high := 4 * m + 2
  numerator := Nat.pow 2 (q - 2).toNat
  denominator := Nat.pow 2 (2 - q).toNat
  closed := m % 2 == 0

/-- The number of decimal digits. -/
def digitCount (n : Nat) : Nat := (Nat.toDigits 10 n).length

/-- The exponent of ten of the leading digit of the number. -/
def Interval.magnitude (i : Interval) : Int :=
  let num := i.value * i.numerator
  if i.denominator ≤ num then (digitCount (num / i.denominator) : Int) - 1
  else - (digitCount ((i.denominator + num - 1) / num - 1) : Int)

/-- Whether `coefficient * 10 ^ exponent` lies in the interval. -/
def Interval.holds (i : Interval) (coefficient : Nat) (exponent : Int) : Bool :=
  let point := coefficient * Nat.pow 10 exponent.toNat * i.denominator
  let scale := Nat.pow 10 (-exponent).toNat * i.numerator
  if i.closed then i.low * scale ≤ point && point ≤ i.high * scale
  else i.low * scale < point && point < i.high * scale

/-- The point of the grid of `10 ^ exponent` that stands for the number, if
the interval holds one. -/
def Interval.gridPoint? (i : Interval) (exponent : Int) : Option Nat :=
  let unit := Nat.pow 10 exponent.toNat * i.denominator
  let scaled := i.value * i.numerator * Nat.pow 10 (-exponent).toNat
  let below := scaled / unit
  let excess := scaled % unit
  let takesBelow := i.holds below exponent
  let takesAbove := i.holds (below + 1) exponent
  if takesBelow && takesAbove then
    if 2 * excess < unit then some below
    else if unit < 2 * excess then some (below + 1)
    else if below % 2 == 0 then some below
    else some (below + 1)
  else if takesBelow then some below
  else if takesAbove then some (below + 1)
  else none

/-- Drops the zeros at the end. -/
def trimZeros (coefficient : Nat) (exponent : Int) : Nat × Int :=
  if h : coefficient ≠ 0 ∧ coefficient % 10 = 0 then trimZeros (coefficient / 10) (exponent + 1)
  else (coefficient, exponent)
termination_by coefficient
decreasing_by omega

/-- The coefficient and exponent of the shortest decimal in the interval:
grids of `digits`, `digits + 1`, ... digits are tried, at most `tries`. -/
def Interval.search (i : Interval) (magnitude : Int) (digits : Nat) : Nat → Nat × Int
  | 0 => (0, 0)
  | tries + 1 =>
    let exponent := magnitude - digits + 1
    match i.gridPoint? exponent with
    | some c => trimZeros c exponent
    | none => i.search magnitude (digits + 1) tries

/-- The shortest decimal that reads back as the number with these bits, for
a finite number. Seventeen digits always suffice. -/
def shortestOfBits (bits : UInt64) : Decimal :=
  let n := bits.toNat
  let negative := 0x8000000000000000 ≤ n
  let biased : Nat := n / 0x10000000000000 % 0x800
  let fraction : Nat := n % 0x10000000000000
  if biased == 0 && fraction == 0 then ⟨negative, 0, 0⟩
  else
    let m : Nat := if biased == 0 then fraction else fraction + 0x10000000000000
    let q : Int := if biased == 0 then -1074 else (biased : Int) - 1075
    let i := Interval.ofBinary m q (fraction == 0 && 1 < biased)
    let (c, e) := i.search i.magnitude 1 17
    ⟨negative, c, e⟩

/-- The shortest decimal that reads back as a finite number. -/
def shortest (x : Float) : Decimal := shortestOfBits x.toBits

end Decimal

end GrammarExplorer
