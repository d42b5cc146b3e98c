import CodeGraph.Ignore.Matcher
import CodeGraph.Ignore.Pattern

/-!
# Rules

The rule of a pattern excludes paths or, with an exclamation mark in front of the pattern, includes
them again.  Of several rules the last one that hits a path decides (`Rules.excludes`); a path that
none hits is kept.  Together this is the library of patterns `gitignore`.
-/

namespace CodeGraph.Ignore

open CodeGraph.Text

namespace Rule

/-- A path without a slash, or a dot and a slash, in front. -/
def relative : List Char → List Char
  | '/' :: rest => rest
  | '.' :: '/' :: rest => rest
  | path => path

/-- The rule of a path pattern. -/
def ofPattern (negated : Bool) (pattern : PathPattern) : Rule where
  negated
  hits path := pattern.hits (relative path)

@[simp]
theorem negated_ofPattern (negated : Bool) (pattern : PathPattern) :
    (ofPattern negated pattern).negated = negated := rfl

@[simp]
theorem hits_ofPattern (negated : Bool) (pattern : PathPattern) (path : List Char) :
    (ofPattern negated pattern).hits path = pattern.hits (relative path) := rfl

/-- The text of a rule without the blanks at its end, unless the last of them is escaped. -/
def trimmed (text : List Char) : List Char :=
  if ['\\', ' '].isSuffixOf text then text else trimEnd text

/-- What a text says: whether its rule is negated, and the pattern; a blank text and a comment say
nothing. -/
def read (source : String) : Except PatternFault (Option (Bool × PathPattern)) :=
  match trimmed source.toList with
  | [] => .ok none
  | '#' :: _ => .ok none
  | '!' :: text => (PathPattern.ofText source text).map fun pattern => some (true, pattern)
  | text => (PathPattern.ofText source text).map fun pattern => some (false, pattern)

/-- The rule of a text. -/
def ofText (source : String) : Except PatternFault (Option Rule) :=
  (read source).map fun said => said.map fun (negated, pattern) => ofPattern negated pattern

end Rule

namespace Rules

/-- The last rule that hits a path. -/
def decisive? (rules : Rules) (path : List Char) : Option Rule :=
  rules.reverse.find? fun rule => rule.hits path

/-- The last rule that hits a path excludes it. -/
def excludes (rules : Rules) : Matcher := fun path =>
  match decisive? rules path with
  | some rule => !rule.negated
  | none => false

end Rules

/-- The library of patterns. -/
def gitignore : PatternLibrary := ⟨Rule.ofText, Rules.excludes⟩

end CodeGraph.Ignore
