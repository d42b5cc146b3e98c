import CodeGraph.Command.Notice
import CodeGraph.Files.Follow
import CodeGraph.Text.Utf8

/-!
# The journal

The journal is the log of a running command with its file, which is opened before the command
starts.  `note` adds the records among some notices to the file as they are said, so a command that
reads the file later finds them there.
-/

namespace CodeGraph.Command

open CodeGraph.Files

/-- The log of a running command. -/
structure Journal where
  plan : LogPlan
  /-- The file that records are added to, if there is one and it could be opened. -/
  place : Option Location
  /-- The time in front of records. -/
  stamp : String

namespace Journal

/-- Records that matter less than all others are shown. -/
def showsDetails (journal : Journal) : Bool := journal.plan.threshold = .debug

/-- The lines that some notices add to the file. -/
def linesOf (journal : Journal) (notices : List Notice) : String :=
  String.join ((notices.filterMap (Notice.shownRecord? journal.plan)).map fun r =>
    Notice.stamped journal.stamp r ++ "\n")

/-- A disk with text added to the file at a place. -/
def appended (disk : Node) (place : Location) (text : String) : Node :=
  match disk.at? place with
  | some (.file content) => disk.put place (.file (content ++ Text.Utf8.encode text.toList))
  | _ => disk

/-- The disk after some notices. -/
def note (journal : Journal) (disk : Node) (notices : List Notice) : Node :=
  match journal.place with
  | some place => appended disk place (journal.linesOf notices)
  | none => disk

end Journal

/-- Opens the file of a log; what it holds stays.  The answer is its place, if it can be opened,
and the disk afterwards. -/
def openLog (disk : Node) (place : Location) : Option Location × Node :=
  match write disk id (followPlace disk .make place) with
  | .ok (place, disk) => (some place, disk)
  | .error _ => (none, disk)

end CodeGraph.Command
