import CodeGraph.Import.Statement
import CodeGraph.Import.Target
import CodeGraph.Language.Table
import CodeGraph.Link
import CodeGraph.Link.Call
import CodeGraph.Link.Choice

/-!
# Resolving links

The links of a batch of declarations are found by name in four passes: members belong to their
owners, types extend and implement types, files import declarations, and functions call functions.
A name that is nobody's gives no link.  `resolve` runs the passes and keeps each link once.
-/

namespace CodeGraph

open CodeGraph.Text

/-- A file with its text. -/
structure SourceFile where
  path : String
  content : String

/-- The declarations of a name. -/
def named (ds : List Declaration) (name : String) : List Declaration :=
  ds.filter fun d => d.name = name

/-! ## Ownership -/

/-- The link from an owner to its member. -/
def ownershipLink? (ds : List Declaration) (d : Declaration) : Option Link :=
  match filled? d.owner with
  | some owner =>
    if ds.any fun o => o.id = owner then
      some (.shown .ownership owner d.id d.span.start (d.name ++ " is a member of its parent"))
    else none
  | none => none

/-- Every member whose owner is in the batch. -/
def ownershipLinks (ds : List Declaration) : List Link := ds.filterMap (ownershipLink? ds)

/-! ## Inheritance -/

/-- The link from a type to the type of a name. -/
def baseLink? (ds : List Declaration) (kind : LinkKind) (verb : String) (d : Declaration)
    (base : String) : Option Link :=
  (bestMatch d (named ds base)).map fun target =>
    .shown kind d.id target.id d.span.start (d.name ++ verb ++ target.name)

/-- The links from a type to the types that it extends and implements. -/
def inheritanceLinksOf (ds : List Declaration) (d : Declaration) : List Link :=
  if d.kind.isType then
    (filled? d.traits.base).toList.filterMap (baseLink? ds .inheritance " extends " d) ++
      d.traits.interfaces.filterMap (baseLink? ds .implementation " implements " d)
  else []

/-- The links from types to the types that they extend and implement. -/
def inheritanceLinks (ds : List Declaration) : List Link := ds.flatMap (inheritanceLinksOf ds)

/-! ## Imports -/

/-- The first candidate that lies where the import points, or the first one without an owner, or
the first one. -/
def importTarget (candidates : List Declaration) (fromFile source : List Char)
    (language : Option Language) : Option Declaration :=
  let relative := (Import.relativePath? language source).bind fun path =>
    let resolved := Import.resolveRelative fromFile path
    candidates.find? fun c => Import.matchesPath c.path.toList resolved
  let dotted := (Import.dottedPath? language source).bind fun path =>
    candidates.find? fun c => Import.matchesModule c.path.toList path
  relative.or <| dotted.or <| (candidates.find? fun c => c.owner = none).or candidates.head?

/-- The declaration that stands for its file: the first one without an owner, or the first one. -/
def representative? (own : List Declaration) : Option Declaration :=
  (own.find? fun d => d.owner = none).or own.head?

/-- The link for one name of an import statement. -/
def importLink? (ds : List Declaration) (file : SourceFile) (language : Option Language)
    (source : Declaration) (statement : Import.Statement) (name : String) : Option Link :=
  (importTarget (named ds name) file.path.toList statement.source.toList language).map fun target =>
    .shown .importing source.id target.id ⟨statement.line, 0⟩
      ("imports " ++ name ++ " from '" ++ statement.source ++ "'")

/-- The links for the import statements of a file that declares something. -/
def importLinksOf (table : ExtensionTable) (ds : List Declaration) (file : SourceFile) :
    List Link :=
  match representative? (ds.filter fun d => d.path = file.path) with
  | none => []
  | some source =>
    let language := table.language file.path
    (Import.scan language file.content.toList).flatMap fun statement =>
      statement.names.filterMap (importLink? ds file language source statement)

/-- The links for the import statements of all files. -/
def importLinks (table : ExtensionTable) (ds : List Declaration) (files : List SourceFile) :
    List Link :=
  files.flatMap (importLinksOf table ds)

/-! ## Calls -/

/-- The names that calls are looked for, in the order in which they are declared; a name of one
character is too short to tell a call by. -/
def calledNames (ds : List Declaration) : List String :=
  withoutRepeats (fun name => name) ((ds.map Declaration.name).filter fun name => 1 < name.length)

/-- The position of an offset in a text whose first line is `line`. -/
def positionIn (line : Int) (text : List Char) (offset : Nat) : Position :=
  let before := text.take offset
  ⟨line + before.count '\n', (before.reverse.takeWhile (· ≠ '\n')).length⟩

/-- The link for the first call of a name in the body of a declaration. -/
def callLink? (ds : List Declaration) (caller : Declaration) (body : List Char) (name : String) :
    Option Link :=
  if name = caller.name then none
  else
    match firstCall name.toList body with
    | none => none
    | some offset =>
      match bestMatch caller (named ds name) with
      | none => none
      | some target =>
        if target.id = caller.id then none
        else
          some (.shown .call caller.id target.id
            (positionIn caller.span.start.line body offset)
            (caller.name ++ " calls " ++ target.name))

/-- The lines of every file; the last of several files with one path counts. -/
def linesByPath (files : List SourceFile) : List (String × List (List Char)) :=
  files.reverse.map fun file => (file.path, cutAt '\n' file.content.toList)

/-- The text in which the calls of a declaration are looked for. -/
def callerBody? (texts : List (String × List (List Char))) (d : Declaration) :
    Option (List Char) :=
  (texts.lookup d.path).bind fun lines => bodyOf lines d.span.start.line d.span.stop.line

/-- The links for the calls in the body of a function or method. -/
def callLinksOf (ds : List Declaration) (names : List String)
    (texts : List (String × List (List Char))) (d : Declaration) : List Link :=
  if d.kind.isCallable then
    match callerBody? texts d with
    | some (c :: body) => names.filterMap (callLink? ds d (c :: body))
    | _ => []
  else []

/-- The links for the calls in all bodies. -/
def callLinks (ds : List Declaration) (files : List SourceFile) : List Link :=
  ds.flatMap (callLinksOf ds (calledNames ds) (linesByPath files))

/-! ## All passes -/

/-- The links of all passes, in their order. -/
def allLinks (table : ExtensionTable) (ds : List Declaration) (files : List SourceFile) :
    List Link :=
  ownershipLinks ds ++ inheritanceLinks ds ++ importLinks table ds files ++ callLinks ds files

/-- The links of a batch of declarations, each id once. -/
def resolve (table : ExtensionTable) (ds : List Declaration) (files : List SourceFile) :
    List Link :=
  withoutRepeats Link.id (allLinks table ds files)

end CodeGraph
