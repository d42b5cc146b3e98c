import CodeGraph.Link.Finder
import CodeGraph.Survey.Run

/-!
# Sessions

A session is what lasts from one survey to the next: the grammar store and the link finder.  Between
surveys the store may be used by itself, single files may be read, and the links of any batch may
be resolved.
-/

namespace CodeGraph

/-- What lasts from survey to survey. -/
structure Session where
  store : GrammarStore
  finder : LinkFinder

/-- What can be done in a session. -/
inductive SessionStep where
  /-- The store is used by itself. -/
  | store (step : GrammarStep)
  /-- A file is read by itself, or is among those read by a survey that is then given up. -/
  | survey (file : SourceFile)
  | resolve (ds : List Declaration) (files : List SourceFile)
  | run (signal : Option Signal) (files : List SourceFile)

namespace Session

/-- The session before its first step. -/
def fresh : Session := ⟨.empty, .fresh⟩

/-- A survey of some files. -/
def run (s : Surveyor) (signal : Option Signal) (session : Session) (files : List SourceFile) :
    SurveyRun × Session :=
  match session.store.prepare s.tools.unavailable with
  | (.error f, store) => (⟨.error f, [], ⟨[], 0⟩, store⟩, { session with store })
  | (.ok (), store) =>
    match s.readAll signal store files with
    | (.error stage, trace, store) =>
      (⟨.error (.cancelled stage), [], trace, store⟩, { session with store })
    | (.ok outcomes, trace, store) =>
      let (cancelled, asked) := ask signal trace.asked
      let trace := { trace with asked }
      if cancelled then
        (⟨.error (.cancelled .beforeResolution), outcomes, trace, store⟩, { session with store })
      else
        let ds := declarationsOf outcomes
        let (links, finder) := session.finder.resolve s.table ds files
        let result : SurveyResult :=
          ⟨ds, links, failuresOf outcomes, skippedOf outcomes, files.length⟩
        (⟨.ok result, outcomes, trace, store⟩, ⟨store, finder⟩)

/-- The session after a step. -/
def step (s : Surveyor) (session : Session) : SessionStep → Session
  | .store step => { session with store := (step.run s.tools session.store).2 }
  | .survey file => { session with store := (s.survey session.store file).2 }
  | .resolve ds files => { session with finder := (session.finder.resolve s.table ds files).2 }
  | .run signal files => (run s signal session files).2

/-- The session after some steps, from the first one on. -/
def after (s : Surveyor) (history : List SessionStep) : Session := history.foldl (step s) fresh

end Session

end CodeGraph
