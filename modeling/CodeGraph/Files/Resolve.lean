import CodeGraph.Files.Follow

/-!
# Resolving paths

Resolving a path gives the location that it names once all links are followed; names that do not
exist are kept.  A link that leads back to itself stays unresolved together with what follows it; if
that can still not be followed, the path has no location.  Nor has a path that holds a NUL.
-/

namespace CodeGraph.Files

open CodeGraph.Text

/-- A location extended by pieces, no link being followed. -/
def lexically (here : Location) : List (List Char) → Location
  | [] => here
  | piece :: rest =>
    if piece = [] ∨ piece = ['.'] then lexically here rest
    else if piece = ['.', '.'] then lexically here.dropLast rest
    else lexically (here ++ [String.ofList piece]) rest

/-- A location extended by the text behind it; a text with a slash in front starts at the root. -/
def joined (here : Location) : List (List Char) → Location
  | [] :: piece :: rest => lexically [] (piece :: rest)
  | pieces => lexically here pieces

/-- The location of some pieces and whether all links on the way could be resolved; `underway` are
the links being resolved, and `depth` bounds how many more may be. -/
def resolveFrom (disk : Node) (depth : Nat) (underway : List Location) (here : Location)
    (pieces : List (List Char)) : Location × Bool :=
  match pieces with
  | [] => (here, true)
  | piece :: rest =>
    if piece = [] ∨ piece = ['.'] then resolveFrom disk depth underway here rest
    else if piece = ['.', '.'] then resolveFrom disk depth underway here.dropLast rest
    else
      let place := here ++ [String.ofList piece]
      match disk.at? place with
      | some (.link target) =>
        if underway.contains place then (joined place rest, false)
        else
          match depth with
          | 0 => (joined place rest, false)
          | depth + 1 =>
            match resolveFrom disk depth (place :: underway) (origin here target.toList)
              (cutAt '/' target.toList) with
            | (place, true) => resolveFrom disk (depth + 1) underway place rest
            | (place, false) => (joined place rest, false)
      | _ => resolveFrom disk depth underway place rest
termination_by (depth, pieces.length)

/-- Why a path has no location. -/
inductive PathFault where
  /-- The path holds a NUL. -/
  | nul
  /-- A link leads back to itself. -/
  | endless
  deriving DecidableEq

/-- The path holds a NUL. -/
def holdsNul (path : String) : Bool := path.toList.contains '\x00'

/-- The location of some pieces that are resolved from a location. -/
def settle (disk : Node) (here : Location) (pieces : List (List Char)) :
    Except PathFault Location :=
  match resolveFrom disk disk.linkCount [] here pieces with
  | (place, true) => .ok place
  | (place, false) =>
    match followPlace disk .look place with
    | .error .tooManyLinks => .error .endless
    | _ => .ok place

/-- The location of a path that is resolved from a folder. -/
def resolvePath (disk : Node) (folder : Location) (path : String) : Except PathFault Location :=
  if holdsNul path then .error .nul
  else settle disk (origin folder path.toList) (Path.components path.toList)

/-- The location of a location that may lead through links. -/
def resolvePlace (disk : Node) (place : Location) : Except PathFault Location :=
  settle disk [] (place.map String.toList)

end CodeGraph.Files
