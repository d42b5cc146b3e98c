import CodeGraph.Files.Follow
import CodeGraph.Ignore.Matcher

/-!
# Finding source files

`sourceFiles` lists the files below a location that a test accepts and that the patterns of a
project do not ignore, ordered by their paths.  Folders that are ignored are not entered at all, and
neither are links to folders; `reached` lists the files whose names the test is asked about.
-/

namespace CodeGraph.Files

open CodeGraph.Ignore

/-! ## Places inside a project -/

/-- The names that lead from a root to a location inside it. -/
def below? (root place : Location) : Option Location :=
  if root.isPrefixOf place then some (place.drop root.length) else none

/-- The text of names below a root; the root itself is a dot. -/
def relativeText (names : Location) : List Char :=
  if names = [] then ['.'] else (Path.join names).toList

/-- The patterns of a project ignore an entry of a folder; what is outside the project is kept. -/
def ignoresEntry (matcher : Matcher) (root folder : Location) (name : String) (isFolder : Bool) :
    Bool :=
  match below? root folder with
  | some names => matcher.ignores (relativeText (names ++ [name])) isFolder
  | none => false

/-- The patterns of a project ignore a location; what is outside the project is kept. -/
def isIgnored (matcher : Matcher) (root place : Location) : Bool :=
  match below? root place with
  | some names => matcher.ignores (relativeText names) false
  | none => false

/-! ## Walking -/

/-- A file of a folder. -/
structure FilePlace where
  folder : Location
  name : String
  deriving DecidableEq

/-- The location of a file of a folder. -/
def FilePlace.place (f : FilePlace) : Location := f.folder ++ [f.name]

mutual

/-- The files at an entry of a folder and below it; `enters` tells which folders are entered. -/
def reached (disk : Node) (enters : Location → String → Bool) (here : Location) (name : String) :
    Node → List FilePlace
  | .file _ => [⟨here, name⟩]
  | .link _ => if leadsToFolder disk (here ++ [name]) then [] else [⟨here, name⟩]
  | .folder entries =>
    if enters here name then reachedAmong disk enters (here ++ [name]) entries else []

/-- The files at some entries of a folder and below them. -/
def reachedAmong (disk : Node) (enters : Location → String → Bool) (here : Location) :
    List (String × Node) → List FilePlace
  | [] => []
  | (name, node) :: rest =>
    reached disk enters here name node ++ reachedAmong disk enters here rest

end

/-- One location stands before another or at the same place. -/
def Location.before (a b : Location) : Bool := decide (a.text ≤ b.text)

/-- The files at the entries of a folder and below it that a walk comes to: folders that the
patterns ignore are not entered. -/
def walked (disk : Node) (matcher : Matcher) (root start : Location)
    (entries : List (String × Node)) :
    List FilePlace :=
  reachedAmong disk (fun folder name => !ignoresEntry matcher root folder name true) start entries

/-- The names that the test is asked about. -/
def askedNames (disk : Node) (matcher : Matcher) (root start : Location) : List String :=
  match nodeOf disk start with
  | .ok (.file _) => if isIgnored matcher root start then [] else [start.getLastD ""]
  | .ok (.folder entries) => (walked disk matcher root start entries).map FilePlace.name
  | _ => []

/-- The source files below a location, in the order of their paths. -/
def sourceFiles (disk : Node) (matcher : Matcher) (accept : String → Bool) (root start : Location) :
    Except FileFault (List Location) :=
  (present? disk start).map fun node =>
    match node with
    | some (.file _) =>
      if !isIgnored matcher root start && accept (start.getLastD "") then [start] else []
    | some (.folder entries) =>
      let found := (walked disk matcher root start entries).filter fun f =>
        accept f.name && !ignoresEntry matcher root f.folder f.name false
      (found.map FilePlace.place).mergeSort Location.before
    | _ => []

end CodeGraph.Files
