import CodeGraph.Text.Blank
import CodeGraph.Text.Cut
import CodeGraph.Text.Word

/-!
# Phrases of import statements

The pieces from which the forms of import statements are built.  A phrase stands at the front of a
text; reading it gives what it says and the rest of the text, or nothing.  `findAll` looks for a
phrase everywhere in a text, from left to right and without overlaps, and tells on which line each
one starts.
-/

namespace CodeGraph.Import

open CodeGraph.Text

/-! ## Pieces -/

/-- What follows a word. -/
def word? (word : String) (text : List Char) : Option (List Char) :=
  if word.toList.isPrefixOf text then some (text.drop word.length) else none

/-- What follows one blank or more. -/
def blanks? (text : List Char) : Option (List Char) :=
  match text with
  | c :: rest => if isBlank c then some (rest.dropWhile isBlank) else none
  | [] => none

/-- What follows any number of blanks. -/
def skipBlanks (text : List Char) : List Char := text.dropWhile isBlank

/-- The longest run of a class, of one character at least, and what follows. -/
def run? (p : Char → Bool) (text : List Char) : Option (List Char × List Char) :=
  match text.takeWhile p with
  | [] => none
  | run => some (run, text.dropWhile p)

/-- What follows one of the two quotation marks. -/
def quote? (text : List Char) : Option (List Char) :=
  match text with
  | c :: rest => if c.toNat = 34 ∨ c.toNat = 39 then some rest else none
  | [] => none

/-- A character that does not end a quoted module name. -/
def isQuotable (c : Char) : Bool := c.toNat != 34 && c.toNat != 39

/-- A text between quotation marks. -/
def quoted? (text : List Char) : Option (List Char × List Char) := do
  let (name, rest) ← run? isQuotable (← quote? text)
  return (name, ← quote? rest)

/-- A text between braces. -/
def braced? (text : List Char) : Option (List Char × List Char) := do
  let (names, rest) ← run? (· ≠ Char.ofNat 125) (← word? "\x7b" text)
  return (names, ← word? "\x7d" rest)

/-! ## Names -/

/-- What stands before the first `as` between blanks. -/
def beforeAlias : List Char → List Char
  | [] => []
  | c :: rest =>
    if isBlank c && ((word? "as" (rest.dropWhile isBlank)).bind blanks?).isSome then []
    else c :: beforeAlias rest

/-- The name of one item of a list of names. -/
def itemName (dropAlias : Bool) (item : List Char) : List Char :=
  if dropAlias then trim (beforeAlias (trim item)) else trim item

/-- The names of a list with commas; items without a name are left out. -/
def itemNames (dropAlias : Bool) (names : List Char) : List String :=
  (((cutAt ',' names).map (itemName dropAlias)).filter (· ≠ [])).map String.ofList

/-- The part of a module name behind its last dot. -/
def lastSegment (name : List Char) : List Char := lastPiece '.' name

/-! ## Search -/

/-- Reads a phrase at the front of a text; the flag says that a line starts there. -/
abbrev Phrase (α : Type) := Bool → List Char → Option (α × List Char)

/-- The phrases of a text with the lines on which they start.  The text starts on `line`, at its
beginning if `lineStart` holds. -/
def findFrom {α : Type} (phrase : Phrase α) (lineStart : Bool) (line : Nat) (text : List Char) :
    List (α × Nat) :=
  match text with
  | [] => []
  | c :: rest =>
    match phrase lineStart (c :: rest) with
    | some (found, after) =>
      if h : after.length < (c :: rest).length then
        let read := (c :: rest).take ((c :: rest).length - after.length)
        (found, line) ::
          findFrom phrase (read.getLast? = some '\n') (line + read.count '\n') after
      else findFrom phrase (c = '\n') (if c = '\n' then line + 1 else line) rest
    | none => findFrom phrase (c = '\n') (if c = '\n' then line + 1 else line) rest
termination_by text.length
decreasing_by
  · exact h
  · exact Nat.lt_succ_self _
  · exact Nat.lt_succ_self _

/-- The phrases of a text with the lines on which they start. -/
def findAll {α : Type} (phrase : Phrase α) (text : List Char) : List (α × Nat) :=
  findFrom phrase true 1 text

end CodeGraph.Import
