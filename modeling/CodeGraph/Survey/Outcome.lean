import CodeGraph.Declaration.Reader
import CodeGraph.Grammar.Store
import CodeGraph.Link.Resolve

/-!
# The outcome of one file

A `Surveyor` holds what a survey of files depends on.  Each file has one `Outcome`: it is skipped
when it has no language or no reader, it fails when it cannot be parsed or read, and otherwise it
contributes its declarations.
-/

namespace CodeGraph

/-- What a survey depends on. -/
structure Surveyor where
  tools : Toolbox
  /-- The languages of extensions that decide which files are read. -/
  table : ExtensionTable
  readers : ReaderTable
  /-- How many files are read at once. -/
  workers : Nat

/-- What came of a file. -/
inductive Outcome where
  /-- The file is of no known language. -/
  | skipped
  /-- The file could not be parsed. -/
  | unparsed (f : Fault)
  /-- The declarations could not be read. -/
  | unread (f : Fault)
  /-- The declarations of the file. -/
  | declared (ds : List Declaration)

/-- A file with its outcome. -/
structure FileOutcome where
  path : String
  outcome : Outcome

namespace Outcome

/-- The declarations that a file contributes. -/
def declarations : Outcome → List Declaration
  | declared ds => ds
  | skipped => []
  | unparsed _ => []
  | unread _ => []

/-- The fault of a file that failed. -/
def fault? : Outcome → Option Fault
  | unparsed f => some f
  | unread f => some f
  | skipped => none
  | declared _ => none

/-- The file was skipped. -/
def isSkipped : Outcome → Bool
  | skipped => true
  | unparsed _ => false
  | unread _ => false
  | declared _ => false

end Outcome

namespace Surveyor

/-- A surveyor with so many workers, or one if there are none; unless they are given, the table is
that of the tools and the readers are the standard ones. -/
def new (tools : Toolbox) (table : Option ExtensionTable) (readers : Option ReaderTable)
    (workers : Int) : Surveyor where
  tools
  table := table.getD tools.table
  readers := readers.getD .standard
  workers := max 1 workers.toNat

@[simp]
theorem one_le_workers_new (tools : Toolbox) (table : Option ExtensionTable)
    (readers : Option ReaderTable) (workers : Int) :
    1 ≤ (new tools table readers workers).workers :=
  Nat.le_max_left ..

/-- The reader for a path. -/
def reader? (s : Surveyor) (path : String) : Option Reader :=
  (s.table.language path).bind s.readers

/-- The file at a path is read. -/
def supports (s : Surveyor) (path : String) : Bool := (s.reader? path).isSome

/-- What comes of a parsed file, or of the fault that kept it from being parsed. -/
def outcomeOf (reader : Reader) : Except Fault ParsedFile → Outcome
  | .error (.unsupportedFile _) => .skipped
  | .error f => .unparsed f
  | .ok file =>
    match reader.run file with
    | .ok ds => .declared ds
    | .error f => .unread f

/-- What comes of a file. -/
def survey (s : Surveyor) (store : GrammarStore) (file : SourceFile) : FileOutcome × GrammarStore :=
  match s.reader? file.path with
  | none => (⟨file.path, .skipped⟩, store)
  | some reader =>
    let (parsed, store) := store.parse s.tools file.path file.content none
    (⟨file.path, outcomeOf reader parsed⟩, store)

/-- What comes of some files, one after the other. -/
def surveyAll (s : Surveyor) (store : GrammarStore) :
    List SourceFile → List FileOutcome × GrammarStore
  | [] => ([], store)
  | file :: rest =>
    let (outcome, store) := s.survey store file
    let (outcomes, store) := s.surveyAll store rest
    (outcome :: outcomes, store)

end Surveyor

end CodeGraph
