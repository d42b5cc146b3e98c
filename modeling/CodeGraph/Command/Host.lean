import CodeGraph.Command.Journal
import CodeGraph.Files.Resolve
import CodeGraph.Grammar.Store
import CodeGraph.Ignore.Sources
import CodeGraph.Settings.Load

/-!
# What surrounds a command

A command finds files and a parser around it (`Host`), and leaves an exit code, texts and changed
files behind (`CommandResult`).  `CommandFault` lists what can break it off.
-/

namespace CodeGraph.Command

open CodeGraph.Files

/-- What a command finds around it. -/
structure Host where
  disk : Node
  /-- The folder in which the command runs. -/
  folder : Location
  /-- The home of the user. -/
  home : Location
  /-- The homes of users by name. -/
  homes : String → Option Location
  /-- What reads the patterns of a project. -/
  patterns : Ignore.PatternLibrary
  loaders : LoaderTable
  parser : Parser
  /-- The reason why no parser can be made, if none can. -/
  unavailable : Option String
  /-- The time in front of records of the log. -/
  stamp : String

/-- What a command leaves behind. -/
structure CommandResult where
  exit : Nat
  output : String
  notices : List Notice
  disk : Node
  /-- The files that were written. -/
  written : List Location

/-- What breaks a command off. -/
inductive CommandFault where
  | settings (f : SettingsFault)
  | pattern (f : Ignore.PatternFault)
  | file (f : FileFault)
  | path (f : PathFault)
  /-- A user has no home. -/
  | homeless
  /-- Grammars cannot be put in order because an extension has none. -/
  | noGrammar
  deriving DecidableEq

namespace Host

/-- Where the settings of a folder stand. -/
def settingsPlace (folder : Location) : Location := folder ++ [".repograph", "config.json"]

/-- The settings of the user, and of a project if there is one. -/
def settings (host : Host) (project : Option Location) : Except CommandFault Json.Value :=
  let found (folder : Location) : Found := content? host.disk (settingsPlace folder)
  match Settings.load (found host.home) ((project.map found).getD (.ok none)) with
  | .ok members => .ok (.object members)
  | .error f => .error (.settings f)

/-- The location of a location that may still lead through links. -/
def settled (host : Host) (place : Location) : Except CommandFault Location :=
  (resolvePlace host.disk place).mapError .path

/-- The location of a path.  What stands behind an endless link may lead on, so the location is
resolved once more. -/
def locate (host : Host) (path : String) : Except CommandFault Location := do
  let place ← (resolvePath host.disk host.folder path).mapError .path
  host.settled place

/-- What stands at a location, if there is something. -/
def present? (host : Host) (place : Location) : Except CommandFault (Option Node) :=
  (Files.present? host.disk place).mapError .file

/-! ## The log file -/

/-- The home that the first name of a path stands for, if it stands for one. -/
def homeOf (host : Host) (name : List Char) : Except CommandFault Location :=
  match name with
  | ['~'] => .ok host.home
  | _ =>
    match host.homes (String.ofList (name.drop 1)) with
    | some home => .ok home
    | none => .error .homeless

/-- The folder and the names of a path in which a tilde in front stands for a home. -/
def logStart (host : Host) (path : List Char) :
    Except CommandFault (Location × List (List Char)) :=
  let pieces := Path.components path
  if path.head? = some '/' then .ok ([], pieces)
  else
    match pieces with
    | ('~' :: user) :: rest =>
      if holdsNul (String.ofList user) then .error (.path .nul)
      else (host.homeOf ('~' :: user)).map fun home => (home, rest)
    | pieces => .ok (host.folder, pieces)

/-- The place of a log file. -/
def logPlace (host : Host) (path : String) : Except CommandFault Location := do
  let (start, pieces) ← host.logStart path.toList
  if holdsNul path then .error (.path .nul) else return lexically start pieces

end Host

end CodeGraph.Command
