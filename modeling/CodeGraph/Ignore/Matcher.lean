import CodeGraph.Text.Blank

/-!
# Matchers

Patterns are read by a library from outside (`PatternLibrary`): it gives the rule of a pattern and
the matcher of some rules, which tells the paths that they exclude together.  Paths are written with
slashes and without one in front.  `Matcher.ignores` also tries a path as a folder, with a slash at
its end.
-/

namespace CodeGraph.Ignore

open CodeGraph.Text

/-- What keeps a pattern from being read. -/
inductive PatternFault where
  /-- The pattern has no segments, or a backslash with nothing to escape. -/
  | malformed (pattern : String)
  /-- A range of characters runs backwards. -/
  | backwardRange
  /-- A pattern is no text. -/
  | notText
  deriving DecidableEq

/-- A pattern that has been read. -/
structure Rule where
  /-- The rule includes what it hits. -/
  negated : Bool
  /-- The paths that the rule hits. -/
  hits : List Char → Bool

/-- Rules, the later ones outweighing the earlier ones. -/
abbrev Rules := List Rule

/-- The paths that some rules exclude. -/
abbrev Matcher := List Char → Bool

/-- What reads patterns. -/
structure PatternLibrary where
  /-- The rule of a pattern, if it has one. -/
  rule : String → Except PatternFault (Option Rule)
  /-- The paths that some rules exclude together. -/
  matcher : Rules → Matcher

/-- A path with one slash at its end. -/
def asFolder (path : List Char) : List Char := dropEnd (· = '/') path ++ ['/']

/-- A path is excluded as it is written or as a folder. -/
def Matcher.ignores (excludes : Matcher) (path : List Char) (isFolder : Bool) : Bool :=
  excludes path || ((isFolder || path.getLast? ≠ some '/') && excludes (asFolder path))

end CodeGraph.Ignore
