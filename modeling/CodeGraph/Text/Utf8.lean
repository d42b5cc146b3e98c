/-!
# UTF-8

`Utf8.encode` writes text as bytes.  Reading is a machine that takes one byte at a time
(`Utf8.step`); it answers a character when one is complete and `none` where the bytes cannot go on
as a character.  `decode?` refuses such bytes, `decodeLossy` shows each of them as U+FFFD: one for
the longest beginning of a character that was broken off, and one for each byte that begins none.
-/

namespace CodeGraph.Text.Utf8

/-! ## Writing -/

/-- The bytes of one character. -/
def encodeChar (c : Char) : List UInt8 :=
  let n := c.toNat
  if n < 0x80 then [n.toUInt8]
  else if n < 0x800 then [(0xC0 + n / 0x40).toUInt8, (0x80 + n % 0x40).toUInt8]
  else if n < 0x10000 then
    [(0xE0 + n / 0x1000).toUInt8, (0x80 + n / 0x40 % 0x40).toUInt8, (0x80 + n % 0x40).toUInt8]
  else
    [(0xF0 + n / 0x40000).toUInt8, (0x80 + n / 0x1000 % 0x40).toUInt8,
      (0x80 + n / 0x40 % 0x40).toUInt8, (0x80 + n % 0x40).toUInt8]

/-- The bytes of a text. -/
def encode (text : List Char) : List UInt8 := text.flatMap encodeChar

@[simp]
theorem encode_nil : encode [] = [] := rfl

@[simp]
theorem encode_cons (c : Char) (text : List Char) :
    encode (c :: text) = encodeChar c ++ encode text := rfl

@[simp]
theorem encode_append (s t : List Char) : encode (s ++ t) = encode s ++ encode t := by
  simp [encode]

/-! ## Reading -/

/-- Where the reader stands. -/
inductive State where
  /-- Between two characters. -/
  | between
  /-- Inside a character: its value so far, the least and greatest byte that continues it, and how
  many bytes follow after that one. -/
  | within (value low high more : Nat)
  deriving DecidableEq

/-- The first byte of a character: what it shows and where the reader then stands. -/
def first (b : Nat) : List (Option Char) × State :=
  if b < 0x80 then ([some (Char.ofNat b)], .between)
  else if b < 0xC2 then ([none], .between)
  else if b < 0xE0 then ([], .within (b - 0xC0) 0x80 0xBF 0)
  else if b = 0xE0 then ([], .within 0 0xA0 0xBF 1)
  else if b = 0xED then ([], .within 0xD 0x80 0x9F 1)
  else if b < 0xF0 then ([], .within (b - 0xE0) 0x80 0xBF 1)
  else if b = 0xF0 then ([], .within 0 0x90 0xBF 2)
  else if b < 0xF4 then ([], .within (b - 0xF0) 0x80 0xBF 2)
  else if b = 0xF4 then ([], .within 4 0x80 0x8F 2)
  else ([none], .between)

/-- One byte: a byte that cannot continue the open character breaks it off and is read afresh. -/
def step (state : State) (b : Nat) : List (Option Char) × State :=
  match state with
  | .between => first b
  | .within value low high more =>
    if low ≤ b ∧ b ≤ high then
      let value := value * 0x40 + (b - 0x80)
      match more with
      | 0 => ([some (Char.ofNat value)], .between)
      | more + 1 => ([], .within value 0x80 0xBF more)
    else (none :: (first b).1, (first b).2)

/-- The characters of the bytes in order, `none` for bytes that belong to no character. -/
def read (state : State) : List UInt8 → List (Option Char)
  | [] => if state = .between then [] else [none]
  | b :: rest => (step state b.toNat).1 ++ read (step state b.toNat).2 rest

/-- The text of the bytes, with U+FFFD for what belongs to no character. -/
def decodeLossy (bytes : List UInt8) : List Char :=
  (read .between bytes).map fun c => c.getD (Char.ofNat 0xFFFD)

/-- The text of the bytes, if they are all well formed. -/
def decode? (bytes : List UInt8) : Option (List Char) := (read .between bytes).mapM id

/-- The mark that may stand in front of a text to tell its encoding. -/
def byteOrderMark : Char := Char.ofNat 0xFEFF

end CodeGraph.Text.Utf8
