import CodeGraph.Json.Value

/-!
# Writing JSON

`render` writes a value as JSON.  A `Style` says whether items stand on lines of their own and
whether characters outside ASCII are escaped; reports are written with `Style.report`.
-/

namespace CodeGraph.Json

/-- How a value is laid out. -/
structure Style where
  /-- Blanks per level when every item stands on a line of its own; `none` for one line. -/
  indent : Option Nat
  /-- Characters outside ASCII are escaped. -/
  ascii : Bool

/-- Two blanks per level, ASCII only. -/
def Style.report : Style := ⟨some 2, true⟩

/-- Everything on one line, characters as they are. -/
def Style.line : Style := ⟨none, false⟩

/-- A code unit as an escape. -/
def unitEscape (unit : Nat) : List Char := '\\' :: 'u' :: Text.hexDigits 4 unit

/-- A character of a string. -/
def renderChar (style : Style) (c : Char) : List Char :=
  let n := c.toNat
  match c with
  | '"' => ['\\', '"']
  | '\\' => ['\\', '\\']
  | '\n' => ['\\', 'n']
  | '\r' => ['\\', 'r']
  | '\t' => ['\\', 't']
  | _ =>
    if n = 8 then ['\\', 'b']
    else if n = 12 then ['\\', 'f']
    else if n < 0x20 then unitEscape n
    else if style.ascii && 0x7E < n then
      if n < 0x10000 then unitEscape n
      else
        unitEscape (0xD800 + (n - 0x10000) / 0x400) ++ unitEscape (0xDC00 + (n - 0x10000) % 0x400)
    else [c]

/-- A string between its marks. -/
def renderString (style : Style) (s : String) : String :=
  String.ofList ('"' :: s.toList.flatMap (renderChar style) ++ ['"'])

/-- What stands before an item at a level: a line break with blanks, or nothing. -/
def Style.lineBreak (style : Style) (level : Nat) : String :=
  match style.indent with
  | some n => String.ofList ('\n' :: List.replicate (n * level) ' ')
  | none => ""

/-- What stands between two items of one line. -/
def Style.comma (style : Style) : String := if style.indent.isSome then "," else ", "

mutual

/-- Adds the text of a value at a level to `out`. -/
def renderAt (style : Style) (level : Nat) (out : String) : Value → String
  | .null => out ++ "null"
  | .bool true => out ++ "true"
  | .bool false => out ++ "false"
  | .integer n => out ++ toString n
  | .number d => out ++ String.ofList (d.textWith "Infinity" "NaN")
  | .text s => out ++ renderString style s
  | .list [] => out ++ "[]"
  | .list (v :: rest) =>
    let out := renderAt style (level + 1) (out ++ "[" ++ style.lineBreak (level + 1)) v
    renderItems style (level + 1) out rest ++ style.lineBreak level ++ "]"
  | .object [] => out ++ "\x7b\x7d"
  | .object ((k, v) :: rest) =>
    let out := out ++ "\x7b" ++ style.lineBreak (level + 1) ++ renderString style k ++ ": "
    let out := renderAt style (level + 1) out v
    renderMembers style (level + 1) out rest ++ style.lineBreak level ++ "\x7d"

/-- Adds the items after the first. -/
def renderItems (style : Style) (level : Nat) (out : String) : List Value → String
  | [] => out
  | v :: rest =>
    let out := renderAt style level (out ++ style.comma ++ style.lineBreak level) v
    renderItems style level out rest

/-- Adds the members after the first. -/
def renderMembers (style : Style) (level : Nat) (out : String) : List (String × Value) → String
  | [] => out
  | (k, v) :: rest =>
    let out := out ++ style.comma ++ style.lineBreak level ++ renderString style k ++ ": "
    renderMembers style level (renderAt style level out v) rest

end

/-- The text of a value. -/
def render (style : Style) (v : Value) : String := renderAt style 0 "" v

end CodeGraph.Json
