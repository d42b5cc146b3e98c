import CodeGraph.Declaration.Comment

/-!
# Signatures

What the languages have in common when parameters, types and keywords are read off a declaration.
-/

namespace CodeGraph

open CodeGraph.Text

/-- The parameters among the nodes of a parameter list: those with a name. -/
def parametersOf (name type : Tree → Option String) (nodes : List Tree) : List Parameter :=
  nodes.filterMap fun t => (filled? (name t)).map fun n => ⟨n, type t⟩

/-- The kinds of the children in front of `stop`, up to the first child that starts behind its
start. -/
def leadingKinds (t stop : Tree) : List String :=
  (t.children.takeWhile fun child => child.label.start < stop.label.start).map Tree.kind

/-- A written type without the colon in front of it, unless nothing is left. -/
def plainType? (text : List Char) : Option String :=
  match text.dropWhile isBlank with
  | ':' :: rest => someText? (trim rest)
  | rest => someText? (trim rest)

/-- The text of an annotation without its sign. -/
def annotationName (text : List Char) : String := String.ofList (trim (eraseFirst '@' text))

end CodeGraph
