import CodeGraph.Command.Languages

/-!
# Running a command line

`run` reads the command line, opens the log and runs the command.  The log shows the records that
reach its threshold, among the other notices and in the log file.
-/

namespace CodeGraph.Command

open CodeGraph.Files

/-- The name and the version of the program. -/
def versionText : String := "repograph 0.3.0\n"

/-- How the program is used. -/
def usageText : String :=
  "usage: repograph [-h] [--version] [-v | -q] COMMAND ...\n" ++
  "       repograph analyze [-v | -q] [-o OUTPUT] [-j WORKERS] [--strict] [--dry-run] [path]\n" ++
  "       repograph languages [-v | -q] [--check] [path]\n"

/-- Runs a command on a host whose log file is open. -/
def perform (host : Host) (journal : Journal) (loudness : Loudness) :
    Request → Except CommandFault CommandResult
  | .analyze request => analyze host journal loudness.verbose request
  | .languages request => languages host journal request

/-- The place of the log file, if there is to be one. -/
def logFile (host : Host) (plan : LogPlan) : Except CommandFault (Option Location) :=
  match plan.file with
  | none => .ok none
  | some path => (host.logPlace path).map some

/-- The place of the open log file, if there is to be one and it can be opened, and the disk
afterwards. -/
def opened (disk : Node) : Option Location → Option Location × Node
  | none => (none, disk)
  | some place => openLog disk place

/-- Runs a command with its log. -/
def runLogged (host : Host) (loudness : Loudness) (request : Request) :
    Except CommandFault CommandResult := do
  let settings ← host.settings none
  let plan ← (logPlan loudness settings).mapError .settings
  let (place, disk) := opened host.disk (← logFile host plan)
  let journal : Journal := ⟨plan, place, host.stamp⟩
  let result ← perform { host with disk } journal loudness request
  return { result with
    notices := Notice.shown plan result.notices, written := result.written ++ place.toList }

/-- Runs a command line. -/
def run (host : Host) (arguments : List String) : Except CommandFault CommandResult :=
  match CommandLine.ofArguments arguments with
  | .misuse => .ok ⟨2, "", [.line usageText], host.disk, []⟩
  | .help => .ok ⟨0, usageText, [], host.disk, []⟩
  | .version => .ok ⟨0, versionText, [], host.disk, []⟩
  | .run loudness request => runLogged host loudness request

end CodeGraph.Command
