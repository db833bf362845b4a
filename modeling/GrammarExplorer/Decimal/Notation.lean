/-
How a decimal is written out: with a point among its digits, or with an
exponent.
-/
import GrammarExplorer.Decimal.Shortest

namespace GrammarExplorer.Decimal

/-- The sign, if there is one to write. -/
def sign (d : Decimal) : List Char := if d.negative then ['-'] else []

def digits (d : Decimal) : List Char := Nat.toDigits 10 d.coefficient

/-- How many digits stand before the point; zero and below means that zeros
follow the point first. -/
def pointAt (d : Decimal) : Int := (d.digits.length : Int) + d.exponent

/-- All digits around a point, without a fraction where there is none. -/
def positional (d : Decimal) : List Char :=
  let digits := d.digits
  if d.coefficient == 0 then d.sign ++ ['0']
  else if 0 ≤ d.exponent then
    d.sign ++ digits ++ List.replicate d.exponent.toNat '0'
  else if 0 < d.pointAt then
    d.sign ++ digits.take d.pointAt.toNat ++ ['.'] ++ digits.drop d.pointAt.toNat
  else
    d.sign ++ ['0', '.'] ++ List.replicate (-d.pointAt).toNat '0' ++ digits

/-- Positional, with a zero fraction where there is none. -/
def pointed (d : Decimal) : List Char :=
  if d.coefficient == 0 || 0 ≤ d.exponent then d.positional ++ ['.', '0'] else d.positional

/-- One digit before the point and an exponent with its sign. -/
def scientific (d : Decimal) : List Char :=
  let mantissa := match d.digits with
    | [] => []
    | [digit] => [digit]
    | digit :: rest => digit :: '.' :: rest
  let power := d.pointAt - 1
  d.sign ++ mantissa ++ ['e', if power < 0 then '-' else '+'] ++ Nat.toDigits 10 power.natAbs

/-- The number in full, never with an exponent and without an empty
fraction. -/
def plainText (x : Float) : String :=
  if x.isNaN then "NaN"
  else if x.isInf then (if x < 0 then "-inf" else "inf")
  else String.ofList (shortest x).positional

/-- The number in full, with a fraction in any case. -/
def pointedText (x : Float) : String :=
  if x.isFinite then String.ofList (shortest x).pointed else plainText x

end GrammarExplorer.Decimal
