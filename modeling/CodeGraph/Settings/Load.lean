import CodeGraph.Files.Follow
import CodeGraph.Json.Reader
import CodeGraph.Settings.Fault
import CodeGraph.Settings.Layer
import CodeGraph.Text.Utf8

/-!
# Loading settings

The settings are the standard ones, under those of the user's file, under those of the project's.
A file counts if it holds a JSON object; other JSON and other text is passed over, and so is a file
that is not there.
-/

namespace CodeGraph.Settings

open CodeGraph.Files CodeGraph.Json CodeGraph.Text

/-- The settings that hold where no file says otherwise. -/
def standard : Members :=
  [("analysis", .object
      [("max_workers", .integer 1), ("strict_parse", .bool false), ("extensions", .object [])]),
    ("logging", .object [("level", .text "INFO"), ("file", .null)]),
    ("ignore", .object
      [("use_gitignore", .bool true),
        ("builtin_patterns", .list [.text ".git/", .text "node_modules/", .text ".repograph/"]),
        ("additional_patterns", .list [])])]

/-- The layer that a file holds, if it holds one. -/
def layer? (file : Found) : Except SettingsFault (Option Members) :=
  match file with
  | .error f => .error (.file f)
  | .ok none => .ok none
  | .ok (some bytes) =>
    match Utf8.decode? bytes with
    | none => .error .undecodable
    | some text =>
      match parse text with
      | .ok (.object members) => .ok (some members)
      | .ok _ => .ok none
      | .error .malformed => .ok none
      | .error .longNumeral => .error .longNumeral

/-- A layer laid over the settings, if there is one. -/
def withLayer (settings : Members) : Option Members → Members
  | some top => overlay settings top
  | none => settings

/-- The settings of the files of the user and of the project. -/
def load (user project : Found) : Except SettingsFault Members := do
  let userLayer ← layer? user
  let projectLayer ← layer? project
  return withLayer (withLayer standard userLayer) projectLayer

end CodeGraph.Settings
