import CodeGraph.Command.Run
import CodeGraph.Ignore.Rules

/-!
# The program

`main` takes a picture of the files around a command line, runs it, says what there is to say and
writes the files that were written.  No parser is built in, so a survey of files ends with that
notice; listing files and languages needs none.
-/

namespace CodeGraph.Program

open CodeGraph.Command CodeGraph.Files

/-- How many folders inside one another are looked into. -/
def maxDepth : Nat := 128

/-- A name that no file has. -/
def noName : String := "\x00"

/-- The path without links, if there is something. -/
def existing? (path : String) : IO (Option String) := do
  try
    let place ← IO.FS.realPath path
    if ← place.pathExists then return some place.toString else return none
  catch _ => return none

/-- What stands at a path, but for what cannot be read.  A link to a file counts as that file, a
link to a folder leads to its place, and a link to nothing stays one. -/
def snapshot (depth : Nat) (path : String) : IO (Option Node) := do
  let some found ← existing? path | return some (.link noName)
  let place ← IO.FS.realPath found
  let isFolder ← place.isDir
  if !isFolder then
    try return some (.file (← IO.FS.readBinFile place).toList)
    catch _ => return none
  match depth with
  | 0 => return none
  | depth + 1 =>
    let mut entries : List (String × Node) := []
    let names ← try place.readDir catch _ => pure #[]
    for entry in names do
      let kind ← try pure (← entry.path.symlinkMetadata).type catch _ => pure .other
      let leadsAway ← entry.path.isDir
      let node ←
        if kind == .symlink && leadsAway then
          pure (some (.link (← IO.FS.realPath entry.path).toString))
        else snapshot depth entry.path.toString
      entries := (node.map fun node => (entry.fileName, node)).toList ++ entries
    return some (.folder entries)

/-- The location of a path without links. -/
def locationOf (path : String) : Location := lexically [] (Path.components path.toList)

/-- Adds what stands at a path without links to a disk. -/
def mount (disk : Node) (path : String) : IO Node := do
  match ← snapshot maxDepth path with
  | some node => return disk.put (locationOf path) node
  | none => return disk

/-- The paths that a command line may be about, besides the current folder. -/
def mentioned (arguments : List String) : List String :=
  match CommandLine.ofArguments arguments with
  | .run _ (.analyze request) => [request.path]
  | .run _ (.languages request) => [request.path]
  | _ => []

/-- The disk as far as a command line needs it. -/
def diskFor (folder home : String) (arguments : List String) : IO Node := do
  let mut disk ← mount (.folder []) folder
  for path in mentioned arguments do
    let some place ← existing? path | continue
    let known := (disk.at? (locationOf place)).isSome
    if !known then
      let found ← IO.FS.realPath place
      let isFolder ← found.isDir
      disk ← mount disk (if isFolder then place else (Location.text (locationOf place).dropLast))
  let settings := (Host.settingsPlace (locationOf home)).text
  try
    let bytes ← IO.FS.readBinFile settings
    return disk.put (locationOf settings) (.file bytes.toList)
  catch _ => return disk

/-- What is said about a fault that breaks a command off. -/
def faultText : CommandFault → String
  | .settings (.file f) => f.text
  | .settings .undecodable => "a file of settings or patterns is not UTF-8"
  | .settings .longNumeral => "a number in the settings has too many digits"
  | .settings .notObject => "a section of the settings is not an object"
  | .settings .notText => "a value in the settings is not a text"
  | .settings .infinite => "a number in the settings is infinite"
  | .settings .notPatterns => "a value in the settings does not list patterns"
  | .settings .notFileName => "the log file in the settings is not a text"
  | .settings .textForLevel => "the log level in the settings stands for a text"
  | .settings .tableForLevel => "the log level in the settings stands for a table"
  | .pattern (.malformed source) =>
    "Invalid git pattern: " ++ String.ofList (Text.quoted source.toList)
  | .pattern .backwardRange => "a pattern has a range that runs backwards"
  | .pattern .notText => "a pattern is not a text"
  | .file f => f.text
  | .path .nul => "a path holds a NUL"
  | .path .endless => "a link leads back to itself"
  | .homeless => "Could not determine home directory."
  | .noGrammar => "an extension has no grammar"

/-- A time in milliseconds as seconds with one decimal. -/
def seconds (milliseconds : Nat) : String :=
  let tenths := (milliseconds + 50) / 100
  toString (tenths / 10) ++ "." ++ toString (tenths % 10)

/-- Writes what a command leaves behind. -/
def publish (result : CommandResult) (stamp elapsed : String) : IO Unit := do
  for place in result.written do
    match result.disk.at? place with
    | some (.file content) => IO.FS.writeBinFile place.text ⟨content.toArray⟩
    | _ => pure ()
  IO.print result.output
  for notice in result.notices do
    IO.eprintln (notice.text stamp elapsed)

/-- Runs the program. -/
def start (arguments : List String) : IO UInt32 := do
  let folder := (← IO.currentDir).toString
  let home := (← IO.getEnv "HOME").getD "/"
  let started ← IO.monoMsNow
  let stamp := seconds started
  let host : Host := {
    disk := ← diskFor folder home arguments
    folder := locationOf folder
    home := locationOf home
    homes := fun _ => none
    patterns := Ignore.gitignore
    loaders := LoaderTable.standard
    parser := fun _ _ => .nothing
    unavailable := some "no parser is built in"
    stamp }
  match run host arguments with
  | .ok result =>
    let elapsed := (← IO.monoMsNow) - started
    publish result stamp (seconds elapsed)
    return result.exit.toUInt32
  | .error f =>
    IO.eprintln ("Error: " ++ faultText f)
    return 1

end CodeGraph.Program

/-- Runs the program. -/
def main (arguments : List String) : IO UInt32 := CodeGraph.Program.start arguments
