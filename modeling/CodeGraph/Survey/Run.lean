import CodeGraph.Survey.Collection
import CodeGraph.Survey.Result

/-!
# Running a survey

A survey makes sure that files can be parsed, reads the declarations of every file, and resolves
the links between them.  The cancel signal is asked before the first file, before each file, and
before the links are resolved; a survey that is cancelled gives no result.
-/

namespace CodeGraph

/-- A survey as seen from outside. -/
structure SurveyRun where
  result : Except Fault SurveyResult
  /-- The outcomes of the files, if all were read. -/
  outcomes : List FileOutcome
  trace : Trace
  /-- The grammar store afterwards. -/
  store : GrammarStore

namespace Surveyor

/-- Reads the files one by one; `done` of `total` files are finished. -/
def sequentially (s : Surveyor) (signal : Option Signal) (total done : Nat) (store : GrammarStore)
    (trace : Trace) :
    List SourceFile → Except Stage (List FileOutcome) × Trace × GrammarStore
  | [] => (.ok [], trace, store)
  | file :: rest =>
    let (cancelled, asked) := ask signal trace.asked
    if cancelled then (.error .betweenFiles, { trace with asked }, store)
    else
      let (outcome, store) := s.survey store file
      let trace := ⟨trace.progress ++ [(done + 1, total)], asked⟩
      match s.sequentially signal total (done + 1) store trace rest with
      | (.ok outcomes, after) => (.ok (outcome :: outcomes), after)
      | (.error stage, after) => (.error stage, after)

/-- Reads the files at once; they finish as the schedule says. -/
def inParallel (s : Surveyor) (signal : Option Signal) (schedule : List (List Nat))
    (store : GrammarStore) (trace : Trace) (files : List SourceFile) :
    Except Stage (List FileOutcome) × Trace × GrammarStore :=
  let (outcomes, store) := s.surveyAll store files
  let (collected, trace) := collect outcomes signal schedule trace
  (collected, trace, store)

/-- The schedule in which the files finish one by one in their order. -/
def inOrder (total : Nat) : List (List Nat) := (List.range total).map fun place => [place]

/-- Reads all files. -/
def readAll (s : Surveyor) (signal : Option Signal) (store : GrammarStore)
    (files : List SourceFile) : Except Stage (List FileOutcome) × Trace × GrammarStore :=
  let (cancelled, asked) := ask signal 0
  if cancelled then (.error .beforeExtraction, ⟨[], asked⟩, store)
  else if s.workers ≤ 1 ∨ files.length ≤ 1 then
    s.sequentially signal files.length 0 store ⟨[], asked⟩ files
  else s.inParallel signal (inOrder files.length) store ⟨[], asked⟩ files

/-- A survey of some files. -/
def run (s : Surveyor) (signal : Option Signal) (store : GrammarStore) (files : List SourceFile) :
    SurveyRun :=
  match store.prepare s.tools.unavailable with
  | (.error f, store) => ⟨.error f, [], ⟨[], 0⟩, store⟩
  | (.ok (), store) =>
    match s.readAll signal store files with
    | (.error stage, trace, store) => ⟨.error (.cancelled stage), [], trace, store⟩
    | (.ok outcomes, trace, store) =>
      let (cancelled, asked) := ask signal trace.asked
      let trace := { trace with asked }
      if cancelled then ⟨.error (.cancelled .beforeResolution), outcomes, trace, store⟩
      else ⟨.ok (.of s.table files outcomes), outcomes, trace, store⟩

end Surveyor

end CodeGraph
