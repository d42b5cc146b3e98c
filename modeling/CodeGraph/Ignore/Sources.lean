import CodeGraph.Files.Follow
import CodeGraph.Ignore.Matcher
import CodeGraph.Settings.Analysis
import CodeGraph.Text.Utf8

/-!
# Where rules come from

The patterns of a project stand in its settings and in two files.  Those built in come first, then
those of the project's own file, those shared with version control, and those added by the settings;
so a later source outweighs an earlier one.
-/

namespace CodeGraph.Ignore

open CodeGraph.Files CodeGraph.Json CodeGraph.Settings CodeGraph.Text

/-- Where a pattern comes from. -/
inductive Origin where
  | builtin
  /-- The project's own file. -/
  | file
  /-- The file shared with version control. -/
  | gitignore
  | additional
  deriving DecidableEq

/-- The name of an origin. -/
def Origin.name : Origin → String
  | builtin => "builtin"
  | file => "file"
  | gitignore => "gitignore"
  | additional => "additional"

/-- A pattern as its source gives it. -/
structure Entry where
  pattern : Value
  origin : Origin

/-- The name of the project's own file. -/
def ownFileName : String := ".repographignore"

/-- The name of the file shared with version control. -/
def sharedFileName : String := ".gitignore"

/-! ## Files -/

/-- The text of a file of patterns; a byte order mark in front of it does not count, nor does a
file that holds only the beginning of one. -/
def textOf? (bytes : List UInt8) : Option (List Char) :=
  let mark := Utf8.encodeChar Utf8.byteOrderMark
  if bytes.length < mark.length ∧ bytes.isPrefixOf mark then some []
  else
    (Utf8.decode? bytes).map fun text =>
      match text with
      | c :: rest => if c = Utf8.byteOrderMark then rest else c :: rest
      | [] => []

/-- The patterns of a text: its lines without blanks around them, but no empty ones and no
comments. -/
def patternLines (text : List Char) : List (List Char) :=
  ((lines text).map trim).filter fun line => line ≠ [] && line.head? ≠ some '#'

/-- The patterns of a file, which may be missing. -/
def patternsOfFile (file : Found) : Except SettingsFault (List Value) :=
  match file with
  | .error f => .error (.file f)
  | .ok none => .ok []
  | .ok (some bytes) =>
    match textOf? bytes with
    | none => .error .undecodable
    | some text => .ok ((patternLines text).map fun line => .text (String.ofList line))

/-! ## Settings -/

/-- The items of a value that lists patterns: the items of a list, the characters of a text, the
keys of an object. -/
def itemsOf (value : Option Value) : Except SettingsFault (List Value) :=
  match truthy? value with
  | none => .ok []
  | some (.list items) => .ok items
  | some (.text s) => .ok (s.toList.map fun c => .text (String.ofList [c]))
  | some (.object members) => .ok (members.map fun (key, _) => .text key)
  | some _ => .error .notPatterns

/-- Patterns with their origin. -/
def tagged (origin : Origin) (patterns : List Value) : List Entry :=
  patterns.map fun pattern => ⟨pattern, origin⟩

/-- The patterns of a project: those of the settings and of its two files. -/
def entries (settings : Value) (own shared : Found) :
    Except SettingsFault (List Entry) := do
  let options ← sectionOf settings "ignore"
  let builtin ← member? options "builtin_patterns"
  let own ← patternsOfFile own
  let useShared ← member? options "use_gitignore"
  let shared ←
    if (useShared.getD (.bool true)).isTruthy then patternsOfFile shared else .ok []
  let additional ← member? options "additional_patterns"
  let builtin ← itemsOf builtin
  let additional ← itemsOf additional
  return tagged .builtin builtin ++ tagged .file own ++ tagged .gitignore shared ++
    tagged .additional additional

namespace PatternLibrary

variable (library : PatternLibrary)

/-- The rules of some patterns; an empty pattern has none. -/
def rulesOf : List Value → Except PatternFault Rules
  | [] => .ok []
  | pattern :: rest =>
    if !pattern.isTruthy then rulesOf rest
    else
      match pattern with
      | .text source =>
        match library.rule source with
        | .error f => .error f
        | .ok rule => (rulesOf rest).map fun rules => rule.toList ++ rules
      | _ => .error .notText

/-- The matcher of a project's patterns. -/
def matcherOf (entries : List Entry) : Except PatternFault Matcher :=
  (library.rulesOf (entries.map Entry.pattern)).map library.matcher

end PatternLibrary

end CodeGraph.Ignore
