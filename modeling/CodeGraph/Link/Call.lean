import CodeGraph.Text.Blank
import CodeGraph.Text.Cut
import CodeGraph.Text.Word

/-!
# Calls in a text

A name is called where it stands as a word with an opening parenthesis behind it (`isCallAt`), or
behind the word `new` (`isCreationAt`).  `firstCall` finds the first place of the first form, or
else of the second; `bodyOf` is the text in which the calls of a declaration are looked for.
-/

namespace CodeGraph

open CodeGraph.Text

/-- A place between two characters, of which one is a word character and the other is not. -/
def isWordBoundary (before after : Option Char) : Bool := before.any isWord != after.any isWord

/-- Blanks, if any, and an opening parenthesis stand in front. -/
def opensCall (text : List Char) : Bool := (text.dropWhile isBlank).head? = some '('

/-- A name with an opening parenthesis stands in front. -/
def startsCall (name text : List Char) : Bool :=
  name.isPrefixOf text && opensCall (text.drop name.length)

/-- A call of `name` stands in front of `text`, with `before` as the character before it. -/
def isCallAt (name : List Char) (before : Option Char) (text : List Char) : Bool :=
  startsCall name text && isWordBoundary before text.head?

/-- One blank or more and then a call of `name` stand in front. -/
def blanksThenCall (name : List Char) : List Char → Bool
  | [] => false
  | c :: rest => isBlank c && (startsCall name rest || blanksThenCall name rest)

/-- The word `new` and a call of `name` stand in front of `text`. -/
def isCreationAt (name : List Char) (before : Option Char) (text : List Char) : Bool :=
  "new".toList.isPrefixOf text && isWordBoundary before text.head? &&
    blanksThenCall name (text.drop 3)

/-- The first place at which `holds` does, as the number of characters before it. -/
def firstPlace (holds : Option Char → List Char → Bool) (before : Option Char) (offset : Nat) :
    List Char → Option Nat
  | [] => none
  | c :: rest =>
    if holds before (c :: rest) then some offset
    else firstPlace holds (some c) (offset + 1) rest

/-- The first place at which a name is called. -/
def firstCall (name text : List Char) : Option Nat :=
  (firstPlace (isCallAt name) none 0 text).or (firstPlace (isCreationAt name) none 0 text)

/-- The lines from `first` to `last`, counted from one, as one text; nothing if the first one is
not there.  A `last` below zero is counted from the end. -/
def bodyOf (lines : List (List Char)) (first last : Int) : Option (List Char) :=
  if first < 1 ∨ (lines.length : Int) < first then none
  else
    let stop := if last < 0 then last + lines.length else last
    some (joinWith '\n' ((lines.take stop.toNat).drop (first - 1).toNat))

end CodeGraph
