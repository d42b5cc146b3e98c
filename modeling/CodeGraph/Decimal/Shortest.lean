import CodeGraph.Decimal.Double

/-!
# Shortest decimal text

A number is written with the fewest digits that read back as it.  `shortest` finds them: for each
number of digits it tests the two neighbours of the value on that decimal grid; the first grid
with a hit wins, of two hits the nearer, of two equally near the even one.
`Double.text` then places the point: positional from `10 ^ -4` up to `10 ^ 16`, scientific outside.
-/

namespace CodeGraph.Decimal

/-- A decimal `digits * 10 ^ exponent`. -/
structure Numeral where
  digits : Nat
  exponent : Int

/-- A power of ten as numerator and denominator. -/
def powerOfTen (exponent : Int) : Nat × Nat :=
  if exponent < 0 then (1, Nat.pow 10 (-exponent).toNat) else (Nat.pow 10 exponent.toNat, 1)

/-- The number of decimal digits. -/
def width (n : Nat) : Nat := (Nat.toDigits 10 n).length

/-- The decimal exponent of the leading digit of `num / den`. -/
def leadingExponent (num den : Nat) : Int :=
  if den ≤ num then (width (num / den) : Int) - 1 else -(width (den / num) : Int)

/-- The hit on the grid `10 ^ exponent`: of the two multiples around the value
`mantissa * 2 ^ binary`, those that round to it, the nearer first. -/
def onGrid? (mantissa : Nat) (binary exponent : Int) : Option Nat :=
  let unit : Nat × Nat :=
    if binary < 2 then (1, Nat.pow 2 (2 - binary).toNat) else (Nat.pow 2 (binary - 2).toNat, 1)
  let grid := powerOfTen exponent
  let a := grid.1 * unit.2
  let b := unit.1 * grid.2
  let value := 4 * mantissa * b
  let gap := if mantissa = Nat.pow 2 52 && -1074 < binary then 1 else 2
  let low := (4 * mantissa - gap) * b
  let high := (4 * mantissa + 2) * b
  let hits (d : Nat) : Bool :=
    if mantissa % 2 = 0 then low ≤ d * a && d * a ≤ high else low < d * a && d * a < high
  let below := value / a
  match hits below, hits (below + 1) with
  | true, false => some below
  | false, true => some (below + 1)
  | false, false => none
  | true, true =>
    let down := value - below * a
    let up := (below + 1) * a - value
    if down < up then some below
    else if up < down then some (below + 1)
    else if below % 2 = 0 then some below else some (below + 1)

/-- Drops trailing zeros. -/
def Numeral.trimZeros (fuel : Nat) (d : Numeral) : Numeral :=
  match fuel with
  | 0 => d
  | fuel + 1 =>
    if d.digits ≠ 0 ∧ d.digits % 10 = 0 then trimZeros fuel ⟨d.digits / 10, d.exponent + 1⟩ else d

/-- The first hit on the grids of `tried + 1` and more digits. -/
def shortestFrom (mantissa : Nat) (binary lead : Int) (tried : Nat) : Nat → Numeral
  | 0 => ⟨mantissa, binary⟩
  | fuel + 1 =>
    let exponent := lead - tried
    match onGrid? mantissa binary exponent with
    | some d => Numeral.trimZeros 20 ⟨d, exponent⟩
    | none => shortestFrom mantissa binary lead (tried + 1) fuel

/-- The shortest decimal that rounds to the positive number `mantissa * 2 ^ binary`; seventeen
digits always suffice. -/
def shortest (mantissa : Nat) (binary : Int) : Numeral :=
  let lead :=
    if binary < 0 then leadingExponent mantissa (Nat.pow 2 (-binary).toNat)
    else leadingExponent (mantissa * Nat.pow 2 binary.toNat) 1
  shortestFrom mantissa binary lead 0 17

/-! ## Text -/

/-- The decimal digits of a number. -/
def digitText (n : Nat) : List Char := Nat.toDigits 10 n

/-- A positive decimal: positional if the leading digit stands from `10 ^ -4` to `10 ^ 15`, with a
digit on both sides of the point; else scientific with an exponent of two digits at least. -/
def Numeral.text (d : Numeral) : List Char :=
  let digits := digitText d.digits
  let point : Int := digits.length + d.exponent
  if -4 < point ∧ point ≤ 16 then
    if point ≤ 0 then '0' :: '.' :: (List.replicate (-point).toNat '0' ++ digits)
    else if d.exponent < 0 then digits.take point.toNat ++ '.' :: digits.drop point.toNat
    else digits ++ List.replicate d.exponent.toNat '0' ++ ['.', '0']
  else
    let scale := point - 1
    let scaleDigits := digitText scale.natAbs
    digits.take 1 ++ (if digits.length = 1 then [] else '.' :: digits.drop 1) ++
      ['e', if scale < 0 then '-' else '+'] ++
      List.replicate (2 - scaleDigits.length) '0' ++ scaleDigits

/-- The text of a number, with the given words for infinity and for no number. -/
def Double.textWith (infinity notANumber : String) : Double → List Char
  | .finite negative mantissa exponent =>
    (if negative then ['-'] else []) ++
      if mantissa = 0 then ['0', '.', '0'] else (shortest mantissa exponent).text
  | .infinite negative => (if negative then ['-'] else []) ++ infinity.toList
  | .notANumber => notANumber.toList

/-- The text of a number as it stands in messages. -/
def Double.text (d : Double) : String := String.ofList (d.textWith "inf" "nan")

end CodeGraph.Decimal
