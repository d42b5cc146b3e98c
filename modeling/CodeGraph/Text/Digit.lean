import CodeGraph.Text.Blank

/-!
# Decimal digits and whole numbers

Every script's ten digits stand in a row, so the digits are given by their zeros (`zeros`).
`digit?` is the value of one digit, `wholeNumber?` reads a whole number in the notation of the
command line and the settings: blanks around it, one sign, digits with single underscores between.
-/

namespace CodeGraph.Text

/-- The code points of the digit zero of every script (general category Nd, Unicode 14). -/
def zeros : List Nat :=
  [0x30, 0x660, 0x6F0, 0x7C0, 0x966, 0x9E6, 0xA66, 0xAE6, 0xB66, 0xBE6,
   0xC66, 0xCE6, 0xD66, 0xDE6, 0xE50, 0xED0, 0xF20, 0x1040, 0x1090, 0x17E0,
   0x1810, 0x1946, 0x19D0, 0x1A80, 0x1A90, 0x1B50, 0x1BB0, 0x1C40, 0x1C50, 0xA620,
   0xA8D0, 0xA900, 0xA9D0, 0xA9F0, 0xAA50, 0xABF0, 0xFF10, 0x104A0, 0x10D30, 0x11066,
   0x110F0, 0x11136, 0x111D0, 0x112F0, 0x11450, 0x114D0, 0x11650, 0x116C0, 0x11730, 0x118E0,
   0x11950, 0x11C50, 0x11D50, 0x11DA0, 0x16A60, 0x16AC0, 0x16B50, 0x1D7CE, 0x1D7D8, 0x1D7E2,
   0x1D7EC, 0x1D7F6, 0x1E140, 0x1E2F0, 0x1E950, 0x1FBF0]

/-- The value of a decimal digit of any script. -/
def digit? (c : Char) : Option Nat :=
  (zeros.find? fun z => z ≤ c.toNat && c.toNat < z + 10).map (c.toNat - ·)

/-- Digits with single underscores between them, after the digits of value `value`; `fresh` says
that a digit has to come next. -/
def digitsFrom (fresh : Bool) (value : Nat) : List Char → Option Nat
  | [] => if fresh then none else some value
  | '_' :: rest => if fresh then none else digitsFrom true value rest
  | c :: rest =>
    match digit? c with
    | some d => digitsFrom false (10 * value + d) rest
    | none => none

/-- The most digits that a whole number is read from. -/
def maxDigits : Nat := 4300

/-- A blank around a whole number: the information separators are none. -/
def isNumeralBlank (c : Char) : Bool := isBlank c && !(0x1C ≤ c.toNat && c.toNat ≤ 0x1F)

/-- A whole number: blanks around it, one sign, at most `maxDigits` digits. -/
def wholeNumber? (text : List Char) : Option Int :=
  let text := dropEnds isNumeralBlank text
  let (negative, digits) :=
    match text with
    | '-' :: rest => (true, rest)
    | '+' :: rest => (false, rest)
    | rest => (false, rest)
  if maxDigits < (digits.filter (· ≠ '_')).length then none
  else (digitsFrom true 0 digits).map fun n => if negative then -(n : Int) else n

end CodeGraph.Text
