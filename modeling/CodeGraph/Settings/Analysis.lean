import CodeGraph.Settings.Fault
import CodeGraph.Json.Value
import CodeGraph.Text.Digit

/-!
# Settings of the analysis

What the settings say about a run: how many files are read at once, whether files with syntax errors
count as failures, and which extensions are added.  Values of the wrong kind fall back to the
standard ones, as far as the accessors allow.
-/

namespace CodeGraph.Settings

open CodeGraph.Json

/-! ## Access -/

/-- The value of a key of a value that must be an object. -/
def member? (value : Value) (key : String) : Except SettingsFault (Option Value) :=
  match value with
  | .object members => .ok (find? key members)
  | _ => .error .notObject

/-- A value that switches something on, if there is one. -/
def truthy? (value : Option Value) : Option Value := value.filter Value.isTruthy

/-- The section of a key; a missing or empty one is an empty object. -/
def sectionOf (settings : Value) (key : String) : Except SettingsFault Value :=
  (member? settings key).map fun v => (truthy? v).getD (.object [])

/-- The whole number a value stands for, if it stands for one. -/
def wholeNumber? : Value → Except SettingsFault (Option Int)
  | .null => .ok none
  | .bool b => .ok (some (if b then 1 else 0))
  | .integer n => .ok (some n)
  | .number (.infinite _) => .error .infinite
  | .number d => .ok d.truncate?
  | .text s => .ok (Text.wholeNumber? s.toList)
  | .list _ => .ok none
  | .object _ => .ok none

/-! ## The analysis -/

/-- The settings of a run. -/
structure Analysis where
  /-- How many files are read at once, at least one. -/
  workers : Nat
  /-- Files with syntax errors count as failures. -/
  strict : Bool
  /-- The languages of further extensions. -/
  extensions : Members

/-- The settings of a run among all settings. -/
def analysis (settings : Value) : Except SettingsFault Analysis := do
  let options ← sectionOf settings "analysis"
  let workers ← wholeNumber? ((← member? options "max_workers").getD (.integer 1))
  let strict ← member? options "strict_parse"
  let extensions ← member? options "extensions"
  return {
    workers := max 1 (workers.getD 1).toNat
    strict := (truthy? strict).isSome
    extensions :=
      match extensions with
      | some (.object members) => members
      | _ => [] }

end CodeGraph.Settings
