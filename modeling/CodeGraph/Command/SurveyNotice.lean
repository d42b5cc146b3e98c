import CodeGraph.Command.Notice
import CodeGraph.Survey.Run

/-!
# Notices of a survey

What is said while files are looked for, read, surveyed and linked.  Every part of the program signs
its records with its own name; the details, records that matter least, are made only when the log
shows them.
-/

namespace CodeGraph.Command

/-! ## Signatures -/

/-- The part of the program that knows the extensions. -/
def tableSource : String := "repograph.analysis.languages"

/-- The part of the program that keeps the grammars. -/
def storeSource : String := "repograph.analysis.grammars"

/-- The part of the program that reads declarations. -/
def declarationSource : String := "repograph.analysis.extractors.base"

/-- The part of the program that links them. -/
def linkSource : String := "repograph.analysis.resolver"

/-- The part of the program that surveys the files. -/
def surveySource : String := "repograph.analysis.pipeline"

/-- A record that matters least. -/
def detail (source text : String) : Notice := .record ⟨.debug, source, text⟩

/-! ## Extensions and grammars -/

/-- The details about the paths that have no language. -/
def unknownDetails (table : ExtensionTable) (paths : List String) : List Notice :=
  (paths.filter fun path => !table.supports path).map fun path =>
    detail tableSource ("Unknown file extension: " ++ path)

/-- The detail about a grammar that was loaded. -/
def loadedDetail (grammar : String) : Notice :=
  detail storeSource ("Loaded " ++ grammar ++ " grammar")

/-- The detail about a parser that could be made. -/
def preparedDetail (loaders : LoaderTable) : Notice :=
  detail storeSource ("tree-sitter initialized (" ++
    toString (grammarNames.countP fun grammar => (loaders grammar).isSome) ++ " grammars known)")

/-! ## Files -/

/-- The ids of the declarations that repeat an earlier one. -/
def repeatedIds (seen : List String) : List Declaration → List String
  | [] => []
  | d :: rest =>
    if d.id ∈ seen then d.id :: repeatedIds seen rest else repeatedIds (d.id :: seen) rest

/-- The details about declarations that repeat an earlier one. -/
def repeatDetails (ds : List Declaration) : List Notice :=
  (repeatedIds [] ds).map fun id => detail declarationSource ("Dropping duplicate entity id " ++ id)

/-- The details about the declarations of a file that are read as those of its language. -/
def readingDetails (reader : Reader) (file : ParsedFile) : List Notice :=
  let first := if file.language = .typescript then JavaScript.declarations file else []
  match reader.read file with
  | .ok ds => repeatDetails first ++ repeatDetails ds
  | .error _ => []

/-- The details about the parsing and the reading of a file, and the grammars kept afterwards. -/
def parsingDetails (s : Surveyor) (store : GrammarStore) (file : SourceFile) :
    List Notice × GrammarStore :=
  match s.reader? file.path with
  | none => ([], store)
  | some reader =>
    let (parsed, after) := store.parse s.tools file.path file.content none
    let loaded := (after.names.drop store.names.length).map loadedDetail
    match parsed with
    | .ok parsed => (loaded ++ readingDetails reader parsed, after)
    | .error _ => (loaded, after)

/-- The details about the parsing and the reading of each of some files. -/
def parsingDetailsOfAll (s : Surveyor) (store : GrammarStore) :
    List SourceFile → List (List Notice)
  | [] => []
  | file :: rest =>
    let (details, store) := parsingDetails s store file
    details :: parsingDetailsOfAll s store rest

/-- The record about what came of a file. -/
def outcomeRecord (o : FileOutcome) : LogRecord :=
  match o.outcome with
  | .unparsed f =>
    ⟨.warning, surveySource, "Failed to parse " ++ o.path ++ ": " ++ f.message⟩
  | .unread _ => ⟨.error, surveySource, "Failed to extract " ++ o.path⟩
  | .skipped => ⟨.debug, surveySource, "Skipping unsupported file: " ++ o.path⟩
  | .declared ds =>
    ⟨.debug, surveySource, o.path ++ ": " ++ toString ds.length ++ " entities"⟩

/-- The line of a progress report. -/
def progressLine (progress : Nat × Nat) : String :=
  "  [" ++ toString progress.1 ++ "/" ++ toString progress.2 ++ "]"

/-- What is said while the files are surveyed: about each its details, its record, and its progress
report if that is wanted. -/
def outcomeNotices (verbose : Bool) (details : List (List Notice)) :
    List FileOutcome → List (Nat × Nat) → List Notice
  | o :: outcomes, p :: progress =>
    details.headD [] ++ .record (outcomeRecord o) ::
      (if verbose then [.line (progressLine p)] else []) ++
      outcomeNotices verbose (details.drop 1) outcomes progress
  | o :: outcomes, [] =>
    details.headD [] ++ .record (outcomeRecord o) ::
      outcomeNotices verbose (details.drop 1) outcomes []
  | [], _ => []

/-! ## The whole survey -/

/-- The detail about the links that were found. -/
def linkDetail (s : Surveyor) (files : List SourceFile) (r : SurveyResult) : Notice :=
  detail linkSource ("Resolved " ++ toString r.links.length ++ " relationships (" ++
    toString (allLinks s.table r.declarations files).length ++ " before dedup) over " ++
    toString r.declarations.length ++ " entities")

/-- The record of a survey that is complete. -/
def resultRecord (r : SurveyResult) : LogRecord :=
  ⟨.info, surveySource,
    "Analyzed " ++ toString r.fileCount ++ " file(s): " ++ toString r.declarations.length ++
      " entities, " ++ toString r.links.length ++ " relationships (" ++
      toString r.skipped.length ++ " skipped, " ++ toString r.failures.length ++ " failed)"⟩

/-- What is said during a survey of files; `details` tells whether the details are, too. -/
def surveyNotices (verbose details : Bool) (s : Surveyor) (files : List SourceFile)
    (run : SurveyRun) : List Notice :=
  let prepared := if details then [preparedDetail s.tools.loaders] else []
  let parsing := if details then parsingDetailsOfAll s .empty files else []
  match run.result with
  | .error _ => outcomeNotices verbose parsing run.outcomes run.trace.progress
  | .ok r =>
    let linking :=
      if details then
        repeatDetails (run.outcomes.flatMap fun o => o.outcome.declarations) ++
          [linkDetail s files r]
      else []
    prepared ++ outcomeNotices verbose parsing run.outcomes run.trace.progress ++ linking ++
      [.record (resultRecord r)]

/-- What is said at the end. -/
def closingNotices (verbose : Bool) (r : SurveyResult) : List Notice :=
  let counted := Notice.finished r.fileCount r.declarations.length r.links.length
  if r.failures.isEmpty then [counted]
  else
    counted :: .line ("  (" ++ toString r.failures.length ++ " file(s) had parse errors)") ::
      if verbose then r.failures.map fun f => .line ("    " ++ f.path ++ ": " ++ f.reason) else []

end CodeGraph.Command
