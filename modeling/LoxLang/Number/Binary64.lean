/-!
# Binary64 magnitudes as counts of the least step

Every finite binary64 number is, up to its sign, a whole number of steps of size `2 ^ -1074`, and
the lower 63 bits of its pattern, its *field*, count the magnitudes below it. `steps` reads a field
as that exact count, and `nearestField` is the field of the magnitude nearest to a given quotient.
These two definitions are authoritative: every reading and every text of a number goes through
them, so no rounding happens anywhere else.
-/

namespace LoxLang

/-- The quotient of two naturals rounded to the nearest natural, a half to the even neighbour. -/
def roundHalfEven (numerator denominator : Nat) : Nat :=
  let quotient := numerator / denominator
  let twice := 2 * (numerator % denominator)
  if twice < denominator then quotient
  else if denominator < twice then quotient + 1
  else quotient + quotient % 2

namespace Binary64

/-- One is this many least steps. -/
def stepsPerUnit : Nat := Nat.pow 2 1074

/-- A normal mantissa starts here; the fields of one exponent are this many. -/
def leastNormal : Nat := Nat.pow 2 52

/-- The weight of the sign bit. -/
def signWeight : Nat := Nat.pow 2 63

/-- The field of infinity; every larger field is no number. -/
def infinityField : Nat := 0x7ff0000000000000

/-- The exact magnitude that a finite field stands for, in least steps. -/
def steps (field : Nat) : Nat :=
  if field < leastNormal then field
  else (field % leastNormal + leastNormal) * Nat.pow 2 (field / leastNormal - 1)

/-- The field of the magnitude nearest to a quotient; a half goes to the even field, and a
magnitude beyond the largest finite one is infinity. -/
def nearestField (numerator denominator : Nat) : Nat :=
  let scaled := numerator * stepsPerUnit
  let shift := (scaled / denominator).log2 - 52
  min infinityField (shift * leastNormal + roundHalfEven scaled (denominator * Nat.pow 2 shift))

/-- The number with a given sign and field. -/
def ofField (negative : Bool) (field : Nat) : Float :=
  Float.ofBits (UInt64.ofNat (if negative then signWeight + field else field))

/-- Whether the sign bit is set. -/
def isNegative (number : Float) : Bool :=
  signWeight ≤ number.toBits.toNat

/-- The lower 63 bits of a number's pattern. -/
def fieldOf (number : Float) : Nat :=
  number.toBits.toNat % signWeight

/-- What a binary64 pattern stands for. -/
inductive Reading where
  | notANumber
  | infinite (negative : Bool)
  | finite (negative : Bool) (field : Nat)
deriving DecidableEq, Repr

/-- Read a pattern as a sign and a field, an infinity or no number. -/
def read (number : Float) : Reading :=
  let field := fieldOf number
  if field < infinityField then .finite (isNegative number) field
  else if field = infinityField then .infinite (isNegative number)
  else .notANumber

/-- The pattern as sixteen lower-case hexadecimal digits. -/
def hexText (number : Float) : String :=
  let digits := Nat.toDigits 16 number.toBits.toNat
  String.ofList (List.replicate (16 - digits.length) '0' ++ digits)

end Binary64

end LoxLang
