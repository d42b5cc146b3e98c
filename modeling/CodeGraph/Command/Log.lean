import CodeGraph.Command.Line
import CodeGraph.Settings.Analysis

/-!
# The log

What happens during a command is logged at a level, and the log shows what reaches its threshold.
The threshold comes from the command line or else from the user's settings, which may also name a
file that the log is added to.
-/

namespace CodeGraph.Command

open CodeGraph.Json CodeGraph.Settings

/-- How much a record matters. -/
inductive Level where
  | debug
  | info
  | warning
  | error
  | critical
  deriving DecidableEq

namespace Level

/-- Levels in order. -/
def rank : Level → Nat
  | debug => 10
  | info => 20
  | warning => 30
  | error => 40
  | critical => 50

/-- The name of a level. -/
def name : Level → String
  | debug => "DEBUG"
  | info => "INFO"
  | warning => "WARNING"
  | error => "ERROR"
  | critical => "CRITICAL"

/-- The level of a name.  Two names stand for other things about a log, the form of its records and
the styles of such forms; a name that stands for nothing counts as `info`. -/
def ofName (name : List Char) : Except SettingsFault Level :=
  match String.ofList name with
  | "DEBUG" => .ok debug
  | "WARNING" => .ok warning
  | "WARN" => .ok warning
  | "NOTSET" => .ok warning
  | "ERROR" => .ok error
  | "CRITICAL" => .ok critical
  | "FATAL" => .ok critical
  | "BASIC_FORMAT" => .error .textForLevel
  | "_STYLES" => .error .tableForLevel
  | _ => .ok info

end Level

/-- The capitals of a letter, as far as the names of levels go: the dotless i and the long s have
the capitals of i and s, and the ligatures of s and t have two. -/
def capitals (c : Char) : List Char :=
  if c = Char.ofNat 0x131 then ['I']
  else if c = Char.ofNat 0x17F then ['S']
  else if c = Char.ofNat 0xFB05 ∨ c = Char.ofNat 0xFB06 then ['S', 'T']
  else [c.toUpper]

/-- Something that happened. -/
structure LogRecord where
  level : Level
  /-- The part of the program that tells. -/
  source : String
  text : String
  deriving DecidableEq

/-- The text of a record, after the time. -/
def LogRecord.message (r : LogRecord) : String :=
  r.level.name ++ " [" ++ r.source ++ "] " ++ r.text

/-- What is logged, and where. -/
structure LogPlan where
  threshold : Level
  /-- The file that the log is added to. -/
  file : Option String
  deriving DecidableEq

/-- The record is shown. -/
def LogPlan.shows (plan : LogPlan) (r : LogRecord) : Bool :=
  decide (plan.threshold.rank ≤ r.level.rank)

/-- The threshold that the settings name. -/
def settingsThreshold (options : Value) : Except SettingsFault Level := do
  match truthy? (← member? options "level") with
  | none => return .info
  | some (.text name) => Level.ofName (name.toList.flatMap capitals)
  | some _ => .error .notText

/-- The threshold: the command line counts before the settings. -/
def thresholdOf (loudness : Loudness) (options : Value) : Except SettingsFault Level :=
  if loudness.verbose then .ok .debug
  else if loudness.quiet then .ok .error
  else settingsThreshold options

/-- What is logged under the user's settings. -/
def logPlan (loudness : Loudness) (settings : Value) : Except SettingsFault LogPlan := do
  let options ← sectionOf settings "logging"
  let threshold ← thresholdOf loudness options
  match truthy? (← member? options "file") with
  | none => return ⟨threshold, none⟩
  | some (.text file) => return ⟨threshold, some file⟩
  | some _ => .error .notFileName

end CodeGraph.Command
