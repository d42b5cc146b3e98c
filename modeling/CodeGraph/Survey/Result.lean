import CodeGraph.Survey.Outcome

/-!
# The result of a survey

A `SurveyResult` holds the declarations and links of all files, the files that failed with the
reasons, and the files that were skipped.  `report` writes it down with its statistics.
-/

namespace CodeGraph

open Json (Value)

/-- A file that could not be parsed or read. -/
structure FileFailure where
  path : String
  reason : String
  deriving DecidableEq

/-- What a survey found. -/
structure SurveyResult where
  declarations : List Declaration
  links : List Link
  failures : List FileFailure
  skipped : List String
  fileCount : Nat

/-- The files that failed. -/
def failuresOf (outcomes : List FileOutcome) : List FileFailure :=
  outcomes.filterMap fun o => o.outcome.fault?.map fun f => ⟨o.path, f.message⟩

/-- The files that were skipped. -/
def skippedOf (outcomes : List FileOutcome) : List String :=
  (outcomes.filter fun o => o.outcome.isSkipped).map FileOutcome.path

/-- The declarations of all files, each id once. -/
def declarationsOf (outcomes : List FileOutcome) : List Declaration :=
  distinctDeclarations (outcomes.flatMap fun o => o.outcome.declarations)

namespace SurveyResult

/-- The result of the outcomes of all files. -/
def of (table : ExtensionTable) (files : List SourceFile) (outcomes : List FileOutcome) :
    SurveyResult :=
  let ds := declarationsOf outcomes
  ⟨ds, resolve table ds files, failuresOf outcomes, skippedOf outcomes, files.length⟩

/-- How many declarations there are of each kind that occurs, in order of first occurrence. -/
def countsByKind (r : SurveyResult) : List (DeclarationKind × Nat) :=
  (withoutRepeats id (r.declarations.map Declaration.kind)).map fun kind =>
    (kind, r.declarations.countP fun d => d.kind = kind)

/-- The statistics. -/
def stats (r : SurveyResult) : Value :=
  .object
    [("files", .integer r.fileCount), ("skipped", .integer r.skipped.length),
      ("failed", .integer r.failures.length), ("entities", .integer r.declarations.length),
      ("entities_by_type", .object (r.countsByKind.map fun (kind, n) => (kind.name, .integer n))),
      ("relationships", .integer r.links.length),
      ("relationships_by_type", countReport r.links)]

/-- The members of the report. -/
def report (r : SurveyResult) : Json.Members :=
  [("entities", .list (r.declarations.map Declaration.report)),
    ("relationships", .list (r.links.map Link.report)),
    ("failures", .list (r.failures.map fun f =>
      .object [("path", .text f.path), ("reason", .text f.reason)])),
    ("skipped", .list (r.skipped.map .text)), ("stats", r.stats)]

end SurveyResult

end CodeGraph
