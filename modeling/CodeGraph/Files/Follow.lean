import CodeGraph.Files.Fault
import CodeGraph.Files.Node

/-!
# Following paths

`follow` walks along the pieces of a path and through the links on the way, at most `maxLinks` of
them; each piece, an empty one too, asks for a folder before it.  Names have at most `maxNameSize`
bytes and paths at most `maxPathSize`.  `read` opens the file to which a location leads, `content?`
looks whether there is one, and `write` makes or changes one.
-/

namespace CodeGraph.Files

open CodeGraph.Text

/-! ## Following -/

/-- Where a path leads: to a node, or to a name that its folder does not have. -/
inductive Spot where
  | taken (place : Location)
  | free (place : Location)
  deriving DecidableEq

/-- How many links are followed on one path. -/
def maxLinks : Nat := 40

/-- Where a text starts that is followed from `here`. -/
def origin (here : Location) (text : List Char) : Location :=
  if text.head? = some '/' then [] else here

/-- How many bytes a name has at most. -/
def maxNameSize : Nat := 255

/-- How many bytes a path has at most. -/
def maxPathSize : Nat := 4095

/-- Why a file is looked for. -/
inductive Purpose where
  | look
  /-- The file is made if it is missing; so no slash may come behind its name. -/
  | make
  deriving DecidableEq

/-- Where some pieces lead from a location, if at most `links` links stand in the way. -/
def follow (disk : Node) (purpose : Purpose) (links : Nat) (here : Location)
    (pieces : List (List Char)) : Except FileFault Spot :=
  match pieces with
  | [] => .ok (.taken here)
  | piece :: rest =>
    match disk.at? here with
    | some (.folder entries) =>
      if piece = [] ∨ piece = ['.'] then follow disk purpose links here rest
      else if piece = ['.', '.'] then follow disk purpose links here.dropLast rest
      else
        let name := String.ofList piece
        if purpose = .make ∧ rest ≠ [] ∧ rest.all List.isEmpty then .error .isFolder
        else if maxNameSize < name.utf8ByteSize then .error .nameTooLong
        else
          match Node.child? name entries with
          | none => if rest = [] then .ok (.free (here ++ [name])) else .error .notFound
          | some (.link target) =>
            match links with
            | 0 => .error .tooManyLinks
            | links + 1 =>
              follow disk purpose links (origin here target.toList)
                (cutAt '/' target.toList ++ rest)
          | some _ => follow disk purpose links (here ++ [name]) rest
    | _ => .error .notFolder
termination_by (links, pieces.length)

/-- Where some pieces lead, if their text is not too long. -/
def followWithin (disk : Node) (purpose : Purpose) (size : Nat) (here : Location)
    (pieces : List (List Char)) : Except FileFault Spot :=
  if maxPathSize < size then .error .nameTooLong else follow disk purpose maxLinks here pieces

/-- Where a path leads from a folder. -/
def followPath (disk : Node) (purpose : Purpose) (folder : Location) (path : List Char) :
    Except FileFault Spot :=
  followWithin disk purpose (String.ofList (Path.normal path)).utf8ByteSize (origin folder path)
    (Path.components path)

/-- Where a location leads. -/
def followPlace (disk : Node) (purpose : Purpose) (place : Location) : Except FileFault Spot :=
  followWithin disk purpose place.text.utf8ByteSize [] (place.map String.toList)

/-- The node at a spot. -/
def nodeAt (disk : Node) : Except FileFault Spot → Except FileFault Node
  | .ok (.taken place) =>
    match disk.at? place with
    | some node => .ok node
    | none => .error .notFound
  | .ok (.free _) => .error .notFound
  | .error f => .error f

/-- The node to which a location leads. -/
def nodeOf (disk : Node) (place : Location) : Except FileFault Node :=
  nodeAt disk (followPlace disk .look place)

/-- The node to which a location leads, if there is one. -/
def present? (disk : Node) (place : Location) : Except FileFault (Option Node) :=
  presentIn (nodeOf disk place)

/-- A location leads to a folder. -/
def leadsToFolder (disk : Node) (place : Location) : Bool :=
  match nodeOf disk place with
  | .ok node => node.isFolder
  | .error _ => false

/-! ## Reading and writing -/

/-- The content of a file that is opened. -/
def contentOf : Except FileFault Node → Except FileFault (List UInt8)
  | .ok (.file content) => .ok content
  | .ok (.folder _) => .error .isFolder
  | .ok (.link _) => .error .tooManyLinks
  | .error f => .error f

/-- Reads the file to which a location leads. -/
def read (disk : Node) (place : Location) : Except FileFault (List UInt8) :=
  contentOf (nodeOf disk place)

/-- What looking for a file gives: its content, if there is one. -/
abbrev Found := Except FileFault (Option (List UInt8))

/-- The content of the file to which a location leads, if it leads to one. -/
def content? (disk : Node) (place : Location) : Found :=
  (present? disk place).map fun node => node.bind Node.content?

/-- Opens the file at a spot for writing; `edit` gives its new content from its old one.  The answer
is the place of the file and the disk afterwards. -/
def write (disk : Node) (edit : List UInt8 → List UInt8) :
    Except FileFault Spot → Except FileFault (Location × Node)
  | .error f => .error f
  | .ok (.free place) => .ok (place, disk.put place (.file (edit [])))
  | .ok (.taken place) =>
    match disk.at? place with
    | some (.file content) => .ok (place, disk.put place (.file (edit content)))
    | some (.folder _) => .error .isFolder
    | _ => .error .notFound

end CodeGraph.Files
