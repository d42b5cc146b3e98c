import CodeGraph.Command.Log

/-!
# Notices

What a command says besides its output: lines, records of the log, and the closing line of an
analysis, in the order in which they are said.
-/

namespace CodeGraph.Command

/-- What is said besides the output. -/
inductive Notice where
  | line (text : String)
  | record (r : LogRecord)
  /-- An analysis is finished. -/
  | finished (files declarations links : Nat)
  deriving DecidableEq

namespace Notice

/-- The record of a notice that the log shows. -/
def shownRecord? (plan : LogPlan) : Notice → Option LogRecord
  | record r => if plan.shows r then some r else none
  | line _ => none
  | finished _ _ _ => none

/-- The notices without the records that the log does not show. -/
def shown (plan : LogPlan) (notices : List Notice) : List Notice :=
  notices.filter fun n =>
    match n with
    | record r => plan.shows r
    | _ => true

/-- The text of a record with the time in front. -/
def stamped (stamp : String) (r : LogRecord) : String := stamp ++ " " ++ r.message

/-- The text of a notice; `elapsed` are the seconds that an analysis took. -/
def text (stamp elapsed : String) : Notice → String
  | line s => s
  | record r => stamped stamp r
  | finished files declarations links =>
    "Analyzed " ++ toString files ++ " file(s) in " ++ elapsed ++ "s: " ++
      toString declarations ++ " entities, " ++ toString links ++ " relationships."

end Notice

end CodeGraph.Command
