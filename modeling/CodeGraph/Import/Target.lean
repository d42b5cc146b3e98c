import CodeGraph.Language
import CodeGraph.Path
import CodeGraph.Text.Cut

/-!
# What an import points at

The module of an import is compared with the paths of files.  A relative import is resolved against
the directory of its file (`resolveRelative`) and compared loosely (`matchesPath`); a dotted module
of Python or Java is turned into a path and compared by whole segments (`matchesModule`).
-/

namespace CodeGraph.Import

open CodeGraph.Text

/-! ## Relative imports -/

/-- One segment of a relative path applied to the segments before it: two dots go up, one level at
most to the top; an empty segment and a single dot stay. -/
def applySegment (segments : List (List Char)) (segment : List Char) : List (List Char) :=
  if segment = [] ∨ segment = ['.'] then segments
  else if segment = ['.', '.'] then segments.dropLast
  else segments ++ [segment]

/-- The path that `path` means in the file `fromFile`. -/
def resolveRelative (fromFile path : List Char) : List Char :=
  let directory := Path.directory fromFile
  let start := if directory.isEmpty then [] else cutAt '/' directory
  joinWith '/' ((cutAt '/' path).foldl applySegment start)

/-- The path of a dotted module: the dots in front go up one directory less than they are many. -/
def modulePath (name : List Char) : List Char :=
  let dots := (name.takeWhile (· = '.')).length
  let rest := replaceChar '.' '/' (name.dropWhile (· = '.'))
  if dots = 0 then rest
  else
    let up := if dots = 1 then "./".toList else (List.replicate (dots - 1) "../".toList).flatten
    if rest.isEmpty then up.dropLast else up ++ rest

/-- The relative path that an import is written with, if it is a relative one. -/
def relativePath? (language : Option Language) (source : List Char) : Option (List Char) :=
  if source.head? = some '.' then
    some (if language = some .python then modulePath source else source)
  else none

/-- The path of a dotted module that is not relative. -/
def dottedPath? (language : Option Language) (source : List Char) : Option (List Char) :=
  if source.head? ≠ some '.' ∧ (language = some .python ∨ language = some .java) then
    some (replaceChar '.' '/' source)
  else none

/-! ## Comparison -/

/-- The extensions of source files that an import may leave out. -/
def sourceExtensions : List (List Char) :=
  [".ts", ".tsx", ".js", ".jsx", ".java", ".py"].map String.toList

/-- A text without the source extension at its end. -/
def dropSourceExtension (text : List Char) : List Char :=
  match sourceExtensions.find? fun ext => ext.isSuffixOf text with
  | some ext => text.take (text.length - ext.length)
  | none => text

/-- A path without its source extension; a line feed behind the extension stays. -/
def withoutExtension (path : List Char) : List Char :=
  if path.getLast? = some '\n' then dropSourceExtension path.dropLast ++ ['\n']
  else dropSourceExtension path

/-- A file is taken for what a relative import resolved to if the paths agree up to their
extensions, if the file's path has the other as a part, or if it ends with it. -/
def matchesPath (file resolved : List Char) : Bool :=
  !resolved.isEmpty &&
    (withoutExtension file = withoutExtension resolved || containsPart resolved file ||
      (withoutExtension resolved).isSuffixOf (withoutExtension file))

/-- A file is taken for a module if its path ends with the segments of the module's. -/
def matchesModule (file path : List Char) : Bool :=
  !path.isEmpty &&
    (withoutExtension file = path || ('/' :: path).isSuffixOf (withoutExtension file))

end CodeGraph.Import
