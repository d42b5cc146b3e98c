import CodeGraph.Text.Printable

/-!
# Quoted text

Messages show a text between quotation marks.  The marks are single unless the text holds a single
mark and no double one; the mark, the backslash and every unprintable character are escaped.
-/

namespace CodeGraph.Text

/-- The lower-case hexadecimal digits of a number, at least `width` of them. -/
def hexDigits (width n : Nat) : List Char :=
  let digits := Nat.toDigits 16 n
  List.replicate (width - digits.length) '0' ++ digits

/-- One character between quotation marks `mark`. -/
def quotedChar (mark c : Char) : List Char :=
  let n := c.toNat
  if c = mark || c = '\\' then ['\\', c]
  else if c = '\t' then ['\\', 't']
  else if c = '\n' then ['\\', 'n']
  else if c = '\r' then ['\\', 'r']
  else if isPrintable c then [c]
  else if n < 0x100 then '\\' :: 'x' :: hexDigits 2 n
  else if n < 0x10000 then '\\' :: 'u' :: hexDigits 4 n
  else '\\' :: 'U' :: hexDigits 8 n

/-- The single quotation mark. -/
def singleMark : Char := Char.ofNat 39

/-- The double quotation mark. -/
def doubleMark : Char := Char.ofNat 34

/-- A text between quotation marks. -/
def quoted (text : List Char) : List Char :=
  let mark :=
    if text.contains singleMark && !text.contains doubleMark then doubleMark else singleMark
  mark :: text.flatMap (quotedChar mark) ++ [mark]

end CodeGraph.Text
