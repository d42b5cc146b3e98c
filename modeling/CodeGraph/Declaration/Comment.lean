import CodeGraph.ParsedFile
import CodeGraph.Text.Blank

/-!
# Documentation comments

A block comment that opens with two stars and stands right before a declaration documents it.
`cleanComment` takes the text out of a block comment: the marks at both ends go, then on every line
the gutter (blanks, one star, one blank) and the blanks at the end.
-/

namespace CodeGraph

open CodeGraph.Text

/-- A text, unless it is empty. -/
def someText? (text : List Char) : Option String :=
  if text.isEmpty then none else some (String.ofList text)

/-- Drops the mark that opens a block comment. -/
def dropOpening (text : List Char) : List Char :=
  if "/**".toList.isPrefixOf text then text.drop 3
  else if "/*".toList.isPrefixOf text then text.drop 2
  else text

/-- Drops the mark that closes a block comment. -/
def dropClosing (text : List Char) : List Char :=
  if "*/".toList.isSuffixOf text then text.take (text.length - 2) else text

/-- Drops the gutter of a line: blanks up to a star, the star, and one blank after it. -/
def dropGutter (line : List Char) : List Char :=
  match line.dropWhile isBlank with
  | '*' :: c :: rest => if isBlank c then rest else c :: rest
  | ['*'] => []
  | _ => line

/-- The text of some comment lines: no gutters, no blanks at the ends. -/
def commentText (body : List Char) : List Char :=
  trim (joinWith '\n' ((lines body).map fun line => trimEnd (dropGutter line)))

/-- The text of a block comment, unless it is empty. -/
def cleanComment (comment : List Char) : Option String :=
  someText? (commentText (dropClosing (dropOpening (trim comment))))

/-- The documentation of the declaration at a place: the comment right before it, or before its
parent when that is one of the `wrappers`. -/
def docComment? (file : ParsedFile) (wrappers : List String) (p : Place) : Option String :=
  let anchor :=
    match p.parent? with
    | some parent => if wrappers.contains parent.kind then parent else p
    | none => p
  match anchor.before with
  | sibling :: _ =>
    if sibling.kind = "comment" ∨ sibling.kind = "block_comment" then
      let text := (file.textOf sibling).toList
      if "/**".toList.isPrefixOf text then cleanComment text else none
    else none
  | [] => none

end CodeGraph
