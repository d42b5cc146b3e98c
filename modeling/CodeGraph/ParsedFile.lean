import CodeGraph.Declaration
import CodeGraph.Text.Cut
import CodeGraph.Text.Utf8
import CodeGraph.Tree.Walk

/-!
# Parsed files

A `ParsedFile` is a file with its tree.  Nodes are placed by byte offsets; `textOf` is the text of
a node, and `spanOf` its place in lines and columns, columns being counted in bytes.
-/

namespace CodeGraph

open CodeGraph.Text

/-- A file with the tree that a grammar gave for it. -/
structure ParsedFile where
  path : String
  language : Language
  grammar : String
  /-- The bytes that the tree's offsets count. -/
  source : List UInt8
  tree : Tree
  /-- The grammar met phrases that it does not know. -/
  hasError : Bool

/-- The bytes from one offset to another. -/
def slice (bytes : List UInt8) (start stop : Nat) : List UInt8 := (bytes.take stop).drop start

/-- The position of an offset: the line feeds before it, and the bytes since the last of them. -/
def positionOf (source : List UInt8) (offset : Nat) : Position :=
  let before := source.take offset
  ⟨before.count 10 + 1, (before.reverse.takeWhile (· ≠ 10)).length⟩

namespace ParsedFile

/-- The whole text of a file. -/
def text (file : ParsedFile) : String := String.ofList (Utf8.decodeLossy file.source)

/-- The text of a node. -/
def textOf (file : ParsedFile) (t : Tree) : String :=
  String.ofList (Utf8.decodeLossy (slice file.source t.label.start t.label.stop))

/-- The span of a node. -/
def spanOf (file : ParsedFile) (t : Tree) : Span :=
  ⟨positionOf file.source t.label.start, positionOf file.source t.label.stop⟩

/-- The declaration that stands at a place. -/
def declaration (file : ParsedFile) (kind : DeclarationKind) (name : Tree) (p : Place)
    (owner : Option String) (traits : Traits) : Declaration :=
  { name := file.textOf name, kind, language := file.language, path := file.path,
    span := file.spanOf p.tree, traits, owner }

/-- Everything that `emit` finds at the nodes of the file. -/
def declarationsBy (file : ParsedFile) (emit : Place → List Declaration) : List Declaration :=
  emitted emit file.tree

end ParsedFile

end CodeGraph
