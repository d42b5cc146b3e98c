/-!
# Binary floating point numbers

A `Double` is a 64-bit binary floating point number given by its parts: a finite one is
`mantissa * 2 ^ exponent`, the mantissa below `2 ^ 53` and the exponent from `-1074` to `971`.
`ofDecimal` is the nearest one to a decimal numeral, in exact arithmetic.
-/

namespace CodeGraph.Decimal

/-- A 64-bit binary floating point number. -/
inductive Double where
  | finite (negative : Bool) (mantissa : Nat) (exponent : Int)
  | infinite (negative : Bool)
  | notANumber
  deriving DecidableEq

/-- The integer nearest to `num / den`; of two nearest ones the even. -/
def roundDiv (num den : Nat) : Nat :=
  let q := num / den
  let twice := 2 * (num % den)
  if twice < den then q else if den < twice then q + 1 else if q % 2 = 0 then q else q + 1

/-- `num / den` divided by `2 ^ exponent`, as numerator and denominator. -/
def scaleDown (num den : Nat) (exponent : Int) : Nat × Nat :=
  if exponent < 0 then (num * Nat.pow 2 (-exponent).toNat, den)
  else (num, den * Nat.pow 2 exponent.toNat)

/-- The exponent of the double nearest to `num / den`: the one that leaves a mantissa of 53 bits,
unless that lies below the least exponent. -/
def exponentOf (num den : Nat) : Int :=
  let low : Int := (Nat.log2 num : Int) - Nat.log2 den - 53
  let (n, d) := scaleDown num den low
  max (-1074) (if n / d < Nat.pow 2 53 then low else low + 1)

/-- The double nearest to `num / den`; of two nearest ones that with the even mantissa. -/
def Double.ofRatio (negative : Bool) (num den : Nat) : Double :=
  if num = 0 then .finite negative 0 (-1074)
  else
    let exponent := exponentOf num den
    let (n, d) := scaleDown num den exponent
    let mantissa := roundDiv n d
    let (mantissa, exponent) :=
      if mantissa = Nat.pow 2 53 then (Nat.pow 2 52, exponent + 1) else (mantissa, exponent)
    if 971 < exponent then .infinite negative else .finite negative mantissa exponent

/-- The double nearest to `digits * 10 ^ exponent`.  Numerals far outside the range are settled by
their number of digits, before any power is formed. -/
def Double.ofDecimal (negative : Bool) (digits : Nat) (exponent : Int) : Double :=
  let magnitude : Int := exponent + (Nat.toDigits 10 digits).length
  if digits = 0 then .finite negative 0 (-1074)
  else if 400 < magnitude then .infinite negative
  else if magnitude < -400 then .finite negative 0 (-1074)
  else if exponent < 0 then .ofRatio negative digits (Nat.pow 10 (-exponent).toNat)
  else .ofRatio negative (digits * Nat.pow 10 exponent.toNat) 1

/-- A finite number with its fraction dropped. -/
def Double.truncate? : Double → Option Int
  | .finite negative mantissa exponent =>
    let n : Nat :=
      if exponent < 0 then mantissa / Nat.pow 2 (-exponent).toNat
      else mantissa * Nat.pow 2 exponent.toNat
    some (if negative then -(n : Int) else n)
  | .infinite _ => none
  | .notANumber => none

/-- The number is zero. -/
def Double.isZero : Double → Bool
  | .finite _ mantissa _ => mantissa == 0
  | .infinite _ => false
  | .notANumber => false

end CodeGraph.Decimal
