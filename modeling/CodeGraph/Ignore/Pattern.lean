import CodeGraph.Ignore.Glob
import CodeGraph.Ignore.Matcher
import CodeGraph.Text.Cut

/-!
# Patterns

A pattern says which paths it hits.  It is a path of globs: a single one is looked for in every
folder, a slash in front ties the pattern to the root, a slash at the end asks for a folder, and two
asterisks stand for any folders.  `PathPattern.ofText` reads a pattern and `PathPattern.hits`
decides for a path, written with slashes and without one in front.
-/

namespace CodeGraph.Ignore

open CodeGraph.Text

/-! ## Form -/

/-- A segment of a pattern. -/
inductive Segment where
  /-- Any folders, or none. -/
  | folders
  /-- Any one name. -/
  | name
  /-- The names that a glob matches. -/
  | glob (pieces : List GlobPiece)
  deriving DecidableEq

/-- What a pattern hits. -/
inductive PathPattern where
  /-- Every path that has a character other than a line feed. -/
  | everything
  /-- Every path with a slash. -/
  | nested
  /-- The paths that start with the segments. -/
  | path (segments : List Segment)
  deriving DecidableEq

/-! ## Reading -/

/-- Two asterisks. -/
def anyFolders : List Char := ['*', '*']

/-- The pieces between slashes, led by two asterisks where the pattern is not tied to the root. -/
def anchored (pieces : List (List Char)) : List (List Char) :=
  match pieces with
  | [] :: rest => rest
  | [piece] => if piece = anyFolders then [piece] else [anyFolders, piece]
  | [piece, []] => if piece = anyFolders then [piece, []] else [anyFolders, piece, []]
  | pieces => pieces

/-- An empty last piece stands for everything inside a folder. -/
def opened : List (List Char) → List (List Char)
  | [] => []
  | [piece] => if piece = [] then [anyFolders] else [piece]
  | piece :: rest => piece :: opened rest

/-- Drops two asterisks that follow two asterisks. -/
def mergeFolders : List (List Char) → List (List Char)
  | [] => []
  | piece :: rest =>
    match mergeFolders rest with
    | next :: more =>
      if piece = anyFolders ∧ next = anyFolders then piece :: more else piece :: next :: more
    | [] => [piece]

/-- The segment of a piece. -/
def segment? (piece : List Char) : Option Segment :=
  if piece = anyFolders then some .folders
  else if piece = ['*'] then some .name
  else (glob? piece).map .glob

/-- Every set of a segment is well formed. -/
def Segment.isOrdered : Segment → Bool
  | .glob pieces => pieces.all GlobPiece.isOrdered
  | _ => true

namespace PathPattern

/-- The pattern of some pieces; `folder` says that the pattern asks for a folder. -/
def ofPieces (source : String) (folder : Bool) (pieces : List (List Char)) :
    Except PatternFault PathPattern :=
  if pieces = [anyFolders] then .ok (if folder then .nested else .everything)
  else if pieces = [anyFolders, ['*']] then .ok .everything
  else if pieces = [anyFolders, ['*'], anyFolders] then .ok .nested
  else
    match pieces.mapM segment? with
    | none => .error (.malformed source)
    | some segments =>
      if segments.all Segment.isOrdered then .ok (.path segments) else .error .backwardRange

/-- The pattern of a text without marks; `source` is the text as it was written. -/
def ofText (source : String) (text : List Char) : Except PatternFault PathPattern :=
  let pieces := cutAt '/' text
  let folder := pieces.getLastD [] = [] && text ≠ ['/']
  match anchored pieces with
  | [] => .error (.malformed source)
  | pieces => ofPieces source folder (mergeFolders (opened pieces))

end PathPattern

/-! ## Hits -/

/-- Nothing is left, or a single line feed. -/
def atEnd (text : List Char) : Bool := text = [] || text = ['\n']

/-- Some rest of the text satisfies `next` after a run of characters other than line feeds. -/
def afterAny (next : List Char → Bool) : List Char → Bool
  | [] => next []
  | c :: rest => next (c :: rest) || (c ≠ '\n' && afterAny next rest)

/-- Some rest of the text behind a slash satisfies `next`. -/
def behindSlash (next : List Char → Bool) : List Char → Bool
  | [] => false
  | c :: rest => (c = '/' && next rest) || (c ≠ '\n' && behindSlash next rest)

/-- The text itself satisfies `next`, or some rest of it behind folders that it starts with. -/
def afterFolders (next : List Char → Bool) (text : List Char) : Bool :=
  next text || afterOne (· ≠ '\n') (behindSlash next) text

/-- The text itself satisfies `next`, or some rest of it after a slash and what follows. -/
def insideFolders (next : List Char → Bool) (text : List Char) : Bool :=
  next text || afterOne (· = '/') (afterOne (· ≠ '\n') (afterAny next)) text

/-- A slash, where one is needed. -/
def afterSlash (needed : Bool) (next : List Char → Bool) : List Char → Bool :=
  if needed then afterOne (· = '/') next else next

/-- The text starts with the segments; a slash must come first if one is needed. -/
def startsWith (needed : Bool) : List Segment → List Char → Bool
  | [] => fun _ => true
  | [.folders] => afterOne (· = '/') fun _ => true
  | [.name] => afterSlash needed <| afterOne (· ≠ '/') <| afterRun fun text =>
      atEnd text || afterOne (· = '/') atEnd text
  | [.glob pieces] => afterSlash needed <| matchesThen (fun text =>
      atEnd text || afterOne (· = '/') (fun _ => true) text) pieces
  | .folders :: rest => insideFolders (startsWith true rest)
  | .name :: rest => afterSlash needed <| afterOne (· ≠ '/') <| afterRun (startsWith true rest)
  | .glob pieces :: rest => afterSlash needed <| matchesThen (startsWith true rest) pieces

/-- The pattern hits a path. -/
def PathPattern.hits : PathPattern → List Char → Bool
  | .everything => fun path => path.any (· ≠ '\n')
  | .nested => fun path => path.contains '/'
  | .path (.folders :: rest) => afterFolders (startsWith false rest)
  | .path segments => startsWith false segments

end CodeGraph.Ignore
