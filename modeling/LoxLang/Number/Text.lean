import LoxLang.Number.Decimal

/-!
# The texts of a number

A number is written in four places, each with rules of its own: as a printed value, in the
parenthesised form of a program, in a token listing and in a JSON report. `NumberText` holds one
rule each. Whole numbers are written with their exact digits where a rule asks for it, all other
digits come from `Decimal.shortest`.
-/

namespace LoxLang

/-- The decimal digits of a natural. -/
def naturalText (value : Nat) : String :=
  String.ofList (Nat.toDigits 10 value)

namespace Decimal

/-- Without an exponent: as many digits behind the point as the decimal has places. -/
def positional (decimal : Decimal) : String :=
  match decimal.exponent with
  | .ofNat power => naturalText (decimal.digits * Nat.pow 10 power)
  | .negSucc power =>
    let places := power + 1
    let fraction := Nat.toDigits 10 (decimal.digits % Nat.pow 10 places)
    naturalText (decimal.digits / Nat.pow 10 places) ++ "." ++
      String.ofList (List.replicate (places - fraction.length) '0' ++ fraction)

/-- The power of ten of the leading digit. -/
def leadingExponent (decimal : Decimal) : Int :=
  decimal.exponent + ((Nat.toDigits 10 decimal.digits).length - 1 : Nat)

/-- One digit before the point, then the signed exponent of ten. -/
def scientific (decimal : Decimal) : String :=
  let digits := Nat.toDigits 10 decimal.digits
  let leading := String.ofList (digits.take 1)
  let rest := digits.drop 1
  let mantissa := if rest.isEmpty then leading else leading ++ "." ++ String.ofList rest
  let exponent := decimal.leadingExponent
  mantissa ++ "e" ++ (if exponent < 0 then "-" else "+") ++ naturalText exponent.natAbs

end Decimal

namespace NumberText

/-- The sign of a negative number; nothing for the others. -/
def sign (negative : Bool) : String :=
  if negative then "-" else ""

/-- The whole number that a finite field stands for, if it is one. -/
def wholeValue? (field : Nat) : Option Nat :=
  let steps := Binary64.steps field
  if steps % Binary64.stepsPerUnit = 0 then some (steps / Binary64.stepsPerUnit) else none

/-- The fewest digits that read back, without an exponent. -/
def shortestText (negative : Bool) (field : Nat) : String :=
  sign negative ++ (Decimal.shortest .up field).positional

/-- Infinity with its sign. -/
def infinityText (negative : Bool) : String :=
  sign negative ++ "inf"

/-- As `print` writes a number: whole numbers with all their digits, the others with the fewest
digits that read back. -/
def value (number : Float) : String :=
  match Binary64.read number with
  | .notANumber => "NaN"
  | .infinite negative => infinityText negative
  | .finite negative field =>
    match wholeValue? field with
    | some whole => sign negative ++ naturalText whole
    | none => shortestText negative field

/-- As the parenthesised form of a program writes a literal: a whole number keeps one zero behind
the point. -/
def literal (number : Float) : String :=
  match Binary64.read number with
  | .notANumber => "NaN"
  | .infinite negative => infinityText negative
  | .finite negative field =>
    match wholeValue? field with
    | some whole => sign negative ++ naturalText whole ++ ".0"
    | none => shortestText negative field

/-- As a token listing writes a literal: a whole number below `2 ^ 63` keeps one zero behind the
point and zero has no sign; a larger one is written with the fewest digits and no point. -/
def token (number : Float) : String :=
  match Binary64.read number with
  | .notANumber => "NaN"
  | .infinite negative => infinityText negative
  | .finite negative field =>
    match wholeValue? field with
    | some whole =>
      if whole < Nat.pow 2 63 then sign (negative && whole != 0) ++ naturalText whole ++ ".0"
      else shortestText negative field
    | none => shortestText negative field

/-- As a JSON report writes a number: without an exponent if the leading digit stands between
`10 ^ -5` and `10 ^ 15`, always with a point or an exponent, and `null` for what JSON cannot
write. -/
def json (number : Float) : String :=
  match Binary64.read number with
  | .notANumber => "null"
  | .infinite _ => "null"
  | .finite negative field =>
    if field = 0 then sign negative ++ "0.0"
    else
      let decimal := Decimal.shortest .even field
      let magnitude :=
        if decimal.leadingExponent < -5 || 15 < decimal.leadingExponent then decimal.scientific
        else if decimal.exponent < 0 then decimal.positional
        else decimal.positional ++ ".0"
      sign negative ++ magnitude

end NumberText

end LoxLang
