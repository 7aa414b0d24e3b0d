import LoxLang.Number.Binary64

/-!
# Decimals and the shortest decimal of a number

A `Decimal` is a natural times a power of ten. `Decimal.ofNumeral` reads the text of a number
literal and `Decimal.field` rounds a decimal to binary64. `Decimal.shortest` goes the other way: it
tries ever finer decimal grids, on each the two neighbours of the number, and takes the first that
is read back as the same number. The finest grid contains the number itself, so the search ends
with a decimal that reads back whatever the number is.
-/

namespace LoxLang

/-- The magnitude `digits * 10 ^ exponent`. -/
structure Decimal where
  digits : Nat
  exponent : Int
deriving DecidableEq, Repr

/-- Which of two equally near decimals is taken. -/
inductive TieRule where
  | up
  | even
deriving DecidableEq, Repr

namespace Decimal

/-- The natural that a run of decimal digits spells. -/
def digitsValue (digits : List Char) : Nat :=
  digits.foldl (fun value digit => 10 * value + (digit.toNat - '0'.toNat)) 0

/-- Read a number literal: digits, and if a point follows, the digits behind it. -/
def ofNumeral (text : List Char) : Decimal :=
  let whole := text.takeWhile Char.isDigit
  let fraction := (text.dropWhile Char.isDigit).drop 1
  { digits := digitsValue (whole ++ fraction), exponent := -(fraction.length : Int) }

/-- The binary64 field nearest to a decimal. -/
def field (decimal : Decimal) : Nat :=
  match decimal.exponent with
  | .ofNat power => Binary64.nearestField (decimal.digits * Nat.pow 10 power) 1
  | .negSucc power => Binary64.nearestField decimal.digits (Nat.pow 10 (power + 1))

/-- The quotient of a number of least steps by the grid unit `10 ^ exponent`. -/
def gridQuotient (steps : Nat) : Int → Nat × Nat
  | .ofNat power => (steps, Binary64.stepsPerUnit * Nat.pow 10 power)
  | .negSucc power => (steps * Nat.pow 10 (power + 1), Binary64.stepsPerUnit)

/-- The neighbour on the grid of unit `10 ^ exponent` that reads back as `target`: the nearer one
if both do, and the one that the tie rule names if they are equally near. -/
def onGrid (tie : TieRule) (target : Nat) (exponent : Int) : Option Decimal :=
  let (numerator, denominator) := gridQuotient (Binary64.steps target) exponent
  let below := numerator / denominator
  let lower : Decimal := { digits := below, exponent }
  let upper : Decimal := { digits := below + 1, exponent }
  let twice := 2 * (numerator % denominator)
  if lower.field = target then
    if upper.field = target then
      let takesUpper := denominator < twice ||
        (twice == denominator && (tie == .up || below % 2 == 1))
      some (if takesUpper then upper else lower)
    else some lower
  else if upper.field = target then some upper
  else none

/-- A finite field's own value: on the grid of unit `10 ^ -1074` every number is a grid point. -/
def exact (target : Nat) : Decimal :=
  { digits := Binary64.steps target * Nat.pow 5 1074, exponent := -1074 }

/-- The decimal on the coarsest grid that reads back, from the grid of unit
`10 ^ (fineness - 1074)` downwards. -/
def coarsest (tie : TieRule) (target : Nat) : Nat → Decimal
  | 0 => exact target
  | fineness + 1 =>
    match onGrid tie target ((fineness + 1 : Nat) - 1074) with
    | some decimal => decimal
    | none => coarsest tie target fineness

/-- The decimal with the fewest digits that reads back as a finite field, and the nearest to it
among those. -/
def shortest (tie : TieRule) (target : Nat) : Decimal :=
  let whole := Binary64.steps target / Binary64.stepsPerUnit
  coarsest tie target (1074 + (Nat.toDigits 10 whole).length)

end Decimal

/-- The number that a number literal stands for. -/
def numeralValue (text : List Char) : Float :=
  Binary64.ofField false (Decimal.ofNumeral text).field

end LoxLang
