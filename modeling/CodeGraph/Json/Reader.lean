import CodeGraph.Json.Value

/-!
# Reading JSON

`parse` reads a JSON text.  Besides the standard grammar it takes the words `NaN`, `Infinity` and
`-Infinity`; a numeral with a fraction or an exponent is a floating point number, any other a whole
number.  `ReadFault` tells the two ways to fail apart: a text outside the grammar, and a whole
number with too many digits.
-/

namespace CodeGraph.Json

open CodeGraph.Decimal

/-- Why a text is not read. -/
inductive ReadFault where
  /-- The text is outside the grammar. -/
  | malformed
  /-- A whole number has more than `maxDigits` digits. -/
  | longNumeral
  deriving DecidableEq

/-- The most digits of a whole number. -/
def maxDigits : Nat := 4300

/-- Drops the white space between tokens. -/
def skipSpace (text : List Char) : List Char :=
  text.dropWhile fun c => c = ' ' || c = '\t' || c = '\n' || c = '\r'

/-! ## Strings -/

/-- The value of a hexadecimal digit. -/
def hexDigit? (c : Char) : Option Nat :=
  if '0' ≤ c ∧ c ≤ '9' then some (c.toNat - 48)
  else if 'a' ≤ c ∧ c ≤ 'f' then some (c.toNat - 87)
  else if 'A' ≤ c ∧ c ≤ 'F' then some (c.toNat - 55)
  else none

/-- The value of four hexadecimal digits. -/
def hexUnit? (a b c d : Char) : Option Nat := do
  let a ← hexDigit? a
  let b ← hexDigit? b
  let c ← hexDigit? c
  let d ← hexDigit? d
  return a * 0x1000 + b * 0x100 + c * 0x10 + d

/-- The character of an escape of one letter. -/
def escape? (c : Char) : Option Char :=
  match c with
  | '"' => some '"'
  | '\\' => some '\\'
  | '/' => some '/'
  | 'b' => some (Char.ofNat 8)
  | 'f' => some (Char.ofNat 12)
  | 'n' => some '\n'
  | 'r' => some '\r'
  | 't' => some '\t'
  | _ => none

/-- The character of one code unit; half of a surrogate pair is shown as U+FFFD. -/
def unitChar (unit : Nat) : Char :=
  if 0xD800 ≤ unit ∧ unit < 0xE000 then Char.ofNat 0xFFFD else Char.ofNat unit

/-- The rest of a string after its opening mark, with what follows; `read` is what was read so far,
backwards, and `high` an open high surrogate. -/
def readString (high : Option Nat) (read : List Char) :
    List Char → Except ReadFault (List Char × List Char)
  | [] => .error .malformed
  | '"' :: rest => .ok ((closed high read).reverse, rest)
  | '\\' :: 'u' :: a :: b :: c :: d :: rest =>
    match hexUnit? a b c d with
    | none => .error .malformed
    | some unit =>
      if 0xD800 ≤ unit ∧ unit < 0xDC00 then readString (some unit) (closed high read) rest
      else
        match high with
        | some h =>
          if 0xDC00 ≤ unit ∧ unit < 0xE000 then
            let code := 0x10000 + (h - 0xD800) * 0x400 + (unit - 0xDC00)
            readString none (Char.ofNat code :: read) rest
          else readString none (unitChar unit :: closed high read) rest
        | none => readString none (unitChar unit :: read) rest
  | '\\' :: c :: rest =>
    match escape? c with
    | none => .error .malformed
    | some c => readString none (c :: closed high read) rest
  | c :: rest =>
    if c.toNat < 0x20 ∨ c = '\\' then .error .malformed
    else readString none (c :: closed high read) rest
where
  /-- What was read, an open high surrogate being left alone. -/
  closed (high : Option Nat) (read : List Char) : List Char :=
    match high with
    | some _ => Char.ofNat 0xFFFD :: read
    | none => read

/-! ## Numbers -/

/-- The value of a run of decimal digits. -/
def digitsValue (digits : List Char) : Nat :=
  digits.foldl (fun n c => 10 * n + (c.toNat - 48)) 0

/-- A decimal digit. -/
def isDigit (c : Char) : Bool := '0' ≤ c && c ≤ '9'

/-- The fraction of a numeral and what follows: the digits after a point, if there are any. -/
def readFraction (text : List Char) : Option (List Char) × List Char :=
  match text with
  | '.' :: rest =>
    match rest.takeWhile isDigit with
    | [] => (none, text)
    | digits => (some digits, rest.dropWhile isDigit)
  | _ => (none, text)

/-- The exponent of a numeral and what follows. -/
def readExponent (text : List Char) : Option Int × List Char :=
  match text with
  | e :: rest =>
    if e = 'e' ∨ e = 'E' then
      let (negative, digits) :=
        match rest with
        | '-' :: more => (true, more)
        | '+' :: more => (false, more)
        | more => (false, more)
      match digits.takeWhile isDigit with
      | [] => (none, text)
      | d :: ds =>
        let n : Int := digitsValue (d :: ds)
        (some (if negative then -n else n), digits.dropWhile isDigit)
    else (none, text)
  | [] => (none, text)

/-- A numeral without its sign: no leading zeros, then fraction and exponent. -/
def readNumber (negative : Bool) (text : List Char) : Except ReadFault (Value × List Char) :=
  let whole :=
    match text with
    | '0' :: _ => ['0']
    | _ => text.takeWhile isDigit
  if whole.isEmpty then .error .malformed
  else
    let (fraction, rest) := readFraction (text.drop whole.length)
    let (exponent, rest) := readExponent rest
    match fraction, exponent with
    | none, none =>
      if maxDigits < whole.length then .error .longNumeral
      else
        let n : Int := digitsValue whole
        .ok (.integer (if negative then -n else n), rest)
    | _, _ =>
      let places := fraction.getD []
      let d := Double.ofDecimal negative (digitsValue (whole ++ places))
        (exponent.getD 0 - places.length)
      .ok (.number d, rest)

/-- What follows a word that stands at the front. -/
def word? (word : String) (text : List Char) : Option (List Char) :=
  if word.toList.isPrefixOf text then some (text.drop word.length) else none

/-- A value that is no string, list or object. -/
def readScalar (text : List Char) : Except ReadFault (Value × List Char) :=
  if let some rest := word? "null" text then .ok (.null, rest)
  else if let some rest := word? "true" text then .ok (.bool true, rest)
  else if let some rest := word? "false" text then .ok (.bool false, rest)
  else if let some rest := word? "NaN" text then .ok (.number .notANumber, rest)
  else if let some rest := word? "Infinity" text then .ok (.number (.infinite false), rest)
  else if let some rest := word? "-Infinity" text then .ok (.number (.infinite true), rest)
  else
    match text with
    | '-' :: rest => readNumber true rest
    | _ => readNumber false text

/-! ## Values -/

mutual

/-- The value at the front of a text, with what follows. -/
def readValue : Nat → List Char → Except ReadFault (Value × List Char)
  | 0, _ => .error .malformed
  | fuel + 1, text =>
    match text with
    | '"' :: rest => do
      let (s, rest) ← readString none [] rest
      return (.text (String.ofList s), rest)
    | '[' :: rest =>
      match skipSpace rest with
      | ']' :: rest => .ok (.list [], rest)
      | rest => readItems fuel [] rest
    | c :: rest =>
      if c = Char.ofNat 123 then
        match skipSpace rest with
        | '"' :: more => readMembers fuel [] more
        | e :: more => if e = Char.ofNat 125 then .ok (.object [], more) else .error .malformed
        | [] => .error .malformed
      else readScalar text
    | [] => .error .malformed

/-- The items of a list from the next one on, after those in `read` (backwards). -/
def readItems : Nat → List Value → List Char → Except ReadFault (Value × List Char)
  | 0, _, _ => .error .malformed
  | fuel + 1, read, text => do
    let (v, rest) ← readValue fuel text
    match skipSpace rest with
    | ']' :: rest => .ok (.list (v :: read).reverse, rest)
    | ',' :: rest => readItems fuel (v :: read) (skipSpace rest)
    | _ => .error .malformed

/-- The members of an object from inside the next key on, after those in `read` (backwards). -/
def readMembers : Nat → List (String × Value) → List Char →
    Except ReadFault (Value × List Char)
  | 0, _, _ => .error .malformed
  | fuel + 1, read, text => do
    let (key, rest) ← readString none [] text
    match skipSpace rest with
    | ':' :: rest =>
      let (v, rest) ← readValue fuel (skipSpace rest)
      let read := (String.ofList key, v) :: read
      match skipSpace rest with
      | ',' :: rest =>
        match skipSpace rest with
        | '"' :: rest => readMembers fuel read rest
        | _ => .error .malformed
      | c :: rest =>
        if c = Char.ofNat 125 then .ok (.object (ofPairs read.reverse), rest)
        else .error .malformed
      | [] => .error .malformed
    | _ => .error .malformed

end

/-- The value of a JSON text.  Every step of the reader takes a character or opens a value, so
twice the length of the text bounds the steps. -/
def parse (text : List Char) : Except ReadFault Value := do
  let (v, rest) ← readValue (2 * text.length + 2) (skipSpace text)
  if (skipSpace rest).isEmpty then return v else throw .malformed

end CodeGraph.Json
