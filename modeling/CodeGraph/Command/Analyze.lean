import CodeGraph.Command.Host
import CodeGraph.Command.SurveyNotice
import CodeGraph.Files.Walk
import CodeGraph.Json.Writer

/-!
# Analyzing a project

The analysis reads the source files of a folder, or a single file, surveys them and writes the
report.  The folder, or that of the file, is the project: its settings and its patterns apply, and
paths are given from there.
-/

namespace CodeGraph.Command

open CodeGraph.Files CodeGraph.Ignore CodeGraph.Json

/-- What is said about settings that name an unknown language. -/
def unknownLanguageLine (value : Value) : String :=
  "Invalid analysis.extensions in config: " ++ ExtensionTable.unknownLanguage value

/-! ## The project -/

/-- The folder of the project to which a location belongs. -/
def projectOf (host : Host) (place : Location) : Except CommandFault Location := do
  let place ← host.settled place
  match ← host.present? place with
  | some (.file _) => return place.dropLast
  | _ => return place

/-- What the patterns of a project exclude. -/
def projectMatcher (host : Host) (project : Location) (settings : Value) :
    Except CommandFault Matcher :=
  match Ignore.entries settings (content? host.disk (project ++ [ownFileName]))
      (content? host.disk (project ++ [sharedFileName])) with
  | .error f => .error (.settings f)
  | .ok entries => (host.patterns.matcherOf entries).mapError .pattern

/-- The path of a file from the folder of its project. -/
def projectPath (project place : Location) : String :=
  String.ofList (relativeText ((below? project place).getD place))

/-! ## Reading -/

/-- The text of a file: bytes that belong to no character are replaced, and all line ends are line
feeds. -/
def sourceText (bytes : List UInt8) : String :=
  String.ofList (Text.unifyLineEnds (Text.Utf8.decodeLossy bytes))

/-- The part of the program that reads the files. -/
def readerSource : String := "repograph.commands.analyze"

/-- A source file, or a record of why it cannot be read. -/
def readSource (disk : Node) (project place : Location) : Except LogRecord SourceFile :=
  match read disk place with
  | .ok bytes => .ok ⟨projectPath project place, sourceText bytes⟩
  | .error f =>
    .error ⟨.warning, readerSource,
      "Cannot read " ++ place.text ++ ": " ++ f.message place.text⟩

/-- What reading some files gives. -/
structure Sources where
  files : List SourceFile
  /-- The records of the files that cannot be read. -/
  unread : List Notice
  /-- The disk afterwards, with those records in the log file. -/
  disk : Node

/-- Reads the files at some places one after the other; those that cannot be read are left out. -/
def readSources (journal : Journal) (project : Location) (disk : Node) : List Location → Sources
  | [] => ⟨[], [], disk⟩
  | place :: rest =>
    match readSource disk project place with
    | .ok file =>
      let sources := readSources journal project disk rest
      { sources with files := file :: sources.files }
    | .error r =>
      let sources := readSources journal project (journal.note disk [.record r]) rest
      { sources with unread := .record r :: sources.unread }

/-! ## The report -/

/-- The text of the report of a project. -/
def reportText (project : Location) (r : SurveyResult) : String :=
  render Style.report (.object (r.report ++ [("root", .text project.text)])) ++ "\n"

/-- How many files are read at once: as many as was asked for, else as many as the settings say. -/
def workersFor (options : Settings.Analysis) (request : AnalyzeRequest) : Int :=
  match request.workers with
  | some n => if n = 0 then options.workers else max 1 n
  | none => options.workers

/-- The survey of some files under the settings. -/
def surveyorFor (host : Host) (table : ExtensionTable) (options : Settings.Analysis)
    (request : AnalyzeRequest) : Surveyor :=
  let tools : Toolbox := {
    table, loaders := host.loaders, parser := host.parser, unavailable := host.unavailable,
    strict := request.strict || options.strict }
  .new tools none none (workersFor options request)

/-- Writes the report to the file that was asked for, or puts it out. -/
def deliver (host : Host) (disk : Node) (output : Option String) (report : String)
    (notices : List Notice) : Except CommandFault CommandResult :=
  match output with
  | none => .ok ⟨0, report, notices, disk, []⟩
  | some path =>
    if holdsNul path then .error (.path .nul)
    else
      let spot := followPath disk .make host.folder path.toList
      match write disk (fun _ => Text.Utf8.encode report.toList) spot with
      | .ok (place, disk) => .ok ⟨0, "", notices, disk, [place]⟩
      | .error f => .error (.file f)

/-! ## The analysis -/

/-- A survey that is about to start. -/
structure SurveyPlan where
  surveyor : Surveyor
  /-- The folder of the project. -/
  project : Location
  /-- The files. -/
  places : List Location

/-- Surveys files and delivers the report; `before` has been said already. -/
def surveyPlaces (host : Host) (journal : Journal) (verbose : Bool) (output : Option String)
    (plan : SurveyPlan) (disk : Node) (before : List Notice) :
    Except CommandFault CommandResult :=
  let sources := readSources journal plan.project disk plan.places
  let run := plan.surveyor.run none GrammarStore.empty sources.files
  let said := surveyNotices verbose journal.showsDetails plan.surveyor sources.files run
  let disk := journal.note sources.disk said
  let notices := before ++ sources.unread ++ said
  match run.result with
  | .error f => .ok ⟨1, "", notices ++ [.line ("Error: " ++ f.message)], disk, []⟩
  | .ok r =>
    deliver host disk output (reportText plan.project r) (notices ++ closingNotices verbose r)

/-- The analysis of a folder or a file that exists. -/
def analyzePlace (host : Host) (journal : Journal) (verbose : Bool) (request : AnalyzeRequest)
    (place : Location) : Except CommandFault CommandResult := do
  let project ← projectOf host place
  let root ← host.settled project
  let settings ← host.settings (some root)
  let options ← (Settings.analysis settings).mapError .settings
  match ExtensionTable.standard.extend options.extensions with
  | .error value => return ⟨1, "", [.line (unknownLanguageLine value)], host.disk, []⟩
  | .ok table =>
    let matcher ← projectMatcher host root settings
    let start ← host.settled place
    let places ← (sourceFiles host.disk matcher table.supports root start).mapError .file
    let unknown :=
      if journal.showsDetails then
        unknownDetails table (askedNames host.disk matcher root start)
      else []
    let disk := journal.note host.disk unknown
    let said (lines : List String) : CommandResult :=
      ⟨0, "", unknown ++ lines.map .line, disk, []⟩
    if places.isEmpty then
      return said ["No analyzable files found (JavaScript, TypeScript, Java, Python)."]
    else if request.dryRun then
      return said
        (("Would analyze " ++ toString places.length ++ " file(s).") ::
          places.map fun p => "  " ++ projectPath project p)
    else
      surveyPlaces host journal verbose request.output
        ⟨surveyorFor host table options request, project, places⟩ disk unknown

/-- The analysis of a folder or a file. -/
def analyze (host : Host) (journal : Journal) (verbose : Bool) (request : AnalyzeRequest) :
    Except CommandFault CommandResult := do
  let place ← host.locate request.path
  match ← host.present? place with
  | some _ => analyzePlace host journal verbose request place
  | none => return ⟨1, "", [.line ("Path does not exist: " ++ place.text)], host.disk, []⟩

end CodeGraph.Command
