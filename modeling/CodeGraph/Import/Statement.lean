import CodeGraph.Import.Phrase
import CodeGraph.Language

/-!
# Import statements

`scan` finds the import statements of a text by their form alone, also inside comments and strings.
Each language has its forms: `from M import a, b` and `import M` in Python, `import M;` in Java,
`import d, { a } from 'M'` and `const d = require('M')` in JavaScript and TypeScript.
-/

namespace CodeGraph.Import

open CodeGraph.Text

/-- What an import statement says: the module, and the names taken from it. -/
structure Clause where
  source : String
  names : List String
  deriving DecidableEq

/-- An import statement of a text. -/
structure Statement where
  source : String
  names : List String
  /-- The line on which the statement starts, counted from one. -/
  line : Nat
  deriving DecidableEq

/-! ## Python -/

/-- A character of a list of names on one line. -/
def isNameListChar (c : Char) : Bool := c ≠ ';' && c ≠ '\n'

/-- Blanks and then a list of names.  If nothing follows the blanks, the last of them that is no
line feed stands for an empty list, provided another blank precedes it. -/
def nameList? (text : List Char) : Option (List Char × List Char) :=
  let gap := text.takeWhile isBlank
  let rest := text.dropWhile isBlank
  match gap with
  | [] => none
  | _ :: more =>
    match run? isNameListChar rest with
    | some found => some found
    | none =>
      let feeds := more.reverse.takeWhile (· = '\n')
      match more.reverse.dropWhile (· = '\n') with
      | [] => none
      | c :: _ => some ([c], feeds ++ rest)

/-- `from M import a, b as c`. -/
def fromImport : Phrase Clause := fun _ text => do
  let (source, rest) ← run? (!isBlank ·) (← blanks? (← word? "from" text))
  let (names, rest) ← nameList? (← word? "import" (← blanks? rest))
  return (⟨String.ofList source, itemNames true names⟩, rest)

/-- `import M` at the start of a line. -/
def plainImport : Phrase Clause := fun lineStart text => do
  if lineStart then
    let (source, rest) ← run? (!isBlank ·) (← blanks? (← word? "import" text))
    return (⟨String.ofList source, [String.ofList (lastSegment source)]⟩, rest)
  else none

/-! ## Java -/

/-- Blanks and then a text up to a semicolon.  If the semicolon follows at once, the last blank is
the text, provided another blank precedes it. -/
def upToSemicolon? (text : List Char) : Option (List Char × List Char) :=
  let gap := text.takeWhile isBlank
  let rest := text.dropWhile isBlank
  match gap with
  | [] => none
  | _ :: more =>
    match run? (· ≠ ';') rest with
    | some (found, rest) => (word? ";" rest).map fun rest => (found, rest)
    | none =>
      match more.getLast? with
      | some c => (word? ";" rest).map fun rest => ([c], rest)
      | none => none

/-- `import M;` and `import static M;`. -/
def javaImport : Phrase Clause := fun _ text => do
  let rest ← word? "import" text
  let static := (blanks? rest).bind fun rest => (word? "static" rest).bind upToSemicolon?
  let (found, rest) ← static.or (upToSemicolon? rest)
  let source := trim found
  return (⟨String.ofList source, [String.ofList (lastSegment source)]⟩, rest)

/-! ## JavaScript and TypeScript -/

/-- The names in braces behind a comma, if they follow. -/
def moreNames (text : List Char) : List Char × List Char :=
  match (word? "," (skipBlanks text)).bind fun rest => braced? (skipBlanks rest) with
  | some found => found
  | none => ([], text)

/-- What an import or a declaration binds: a name and the names in braces. -/
structure Binding where
  single : List Char
  several : List Char

/-- `{ a, b as c }`, `d`, or `d, { a, b as c }`. -/
def binding? (text : List Char) : Option (Binding × List Char) :=
  match braced? text with
  | some (names, rest) => some (⟨[], names⟩, rest)
  | none =>
    (run? isWord text).map fun (name, rest) =>
      let (names, rest) := moreNames rest
      (⟨name, names⟩, rest)

/-- The names that a binding binds. -/
def Binding.names (dropAlias : Bool) (b : Binding) : List String :=
  (if b.single.isEmpty then [] else [String.ofList b.single]) ++ itemNames dropAlias b.several

/-- `import d, { a, b as c } from 'M'`. -/
def moduleImport : Phrase Clause := fun _ text => do
  let (bound, rest) ← binding? (← blanks? (← word? "import" text))
  let (source, rest) ← quoted? (← blanks? (← word? "from" (← blanks? rest)))
  return (⟨String.ofList source, bound.names true⟩, rest)

/-- What follows one of the words that declare variables. -/
def declarator? (text : List Char) : Option (List Char) :=
  ((word? "const" text).or (word? "let" text)).or (word? "var" text)

/-- `{ a, b }` or `d`. -/
def target? (text : List Char) : Option (Binding × List Char) :=
  match braced? text with
  | some (names, rest) => some (⟨[], names⟩, rest)
  | none => (run? isWord text).map fun (name, rest) => (⟨name, []⟩, rest)

/-- `const { a, b } = require('M')`. -/
def requireCall : Phrase Clause := fun _ text => do
  let (bound, rest) ← target? (← blanks? (← declarator? text))
  let rest ← word? "require" (skipBlanks (← word? "=" (skipBlanks rest)))
  let (source, rest) ← quoted? (skipBlanks (← word? "(" (skipBlanks rest)))
  let rest ← word? ")" (skipBlanks rest)
  return (⟨String.ofList source, bound.names false⟩, rest)

/-! ## Scanning -/

/-- The statements of one form. -/
def statements (phrase : Phrase Clause) (text : List Char) : List Statement :=
  (findAll phrase text).map fun (clause, line) => ⟨clause.source, clause.names, line⟩

/-- The import statements of a text, form by form, each form in the order of the text. -/
def scan (language : Option Language) (text : List Char) : List Statement :=
  match language with
  | none => []
  | some .python => statements fromImport text ++ statements plainImport text
  | some .java => statements javaImport text
  | some .javascript => statements moduleImport text ++ statements requireCall text
  | some .typescript => statements moduleImport text ++ statements requireCall text

end CodeGraph.Import
