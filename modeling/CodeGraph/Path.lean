import CodeGraph.Text.Cut
import CodeGraph.Text.Lower

/-!
# Paths as text

A path is a text with slashes.  Its components are the pieces between slashes that are neither
empty nor a single dot; the last one is its final name, and the suffix of a name runs from its last
dot, when that dot is neither the first nor the last character.  `extension` is the lower-case
suffix, a backslash counting as a slash.
-/

namespace CodeGraph.Path

open CodeGraph.Text

/-- The components of a path. -/
def components (path : List Char) : List (List Char) :=
  (cutAt '/' path).filter fun piece => piece ≠ [] && piece ≠ ['.']

/-- The path with single slashes and without single dots; a path without components is a dot or a
slash. -/
def normal (path : List Char) : List Char :=
  let names := joinWith '/' (components path)
  if path.head? = some '/' then '/' :: names else if names = [] then ['.'] else names

/-- The last component, or nothing for a path without components. -/
def finalName (path : List Char) : List Char := (components path).getLastD []

/-- The part of a name from its last dot on, if there is something before and behind the dot. -/
def suffix (name : List Char) : List Char :=
  let tail := (name.reverse.takeWhile (· ≠ '.')).reverse
  if tail ≠ [] ∧ tail.length + 1 < name.length then '.' :: tail else []

/-- The lower-case suffix of the final name of a path. -/
def extension (path : List Char) : List Char :=
  lower (suffix (finalName (replaceChar '\\' '/' path)))

/-- What stands before the last slash, without the slashes that end it; a path of slashes alone
stays as it is. -/
def directory (path : List Char) : List Char :=
  let head := (path.reverse.dropWhile (· ≠ '/')).reverse
  if head.all (· = '/') then head else (head.reverse.dropWhile (· = '/')).reverse

/-- The names joined by slashes. -/
def join (names : List String) : String :=
  String.ofList (joinWith '/' (names.map String.toList))

end CodeGraph.Path
