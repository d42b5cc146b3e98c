/-!
# Faults

What can go wrong between a file and its declarations, and what is said about it.
-/

namespace CodeGraph

/-- The points at which a run may be cancelled. -/
inductive Stage where
  | beforeExtraction
  | betweenFiles
  | beforeResolution
  deriving DecidableEq

/-- The name of a point in messages. -/
def Stage.name : Stage → String
  | beforeExtraction => "before extraction"
  | betweenFiles => "between files"
  | beforeResolution => "before relationship resolution"

/-- What went wrong. -/
inductive Fault where
  /-- The extension of a path has no language. -/
  | unsupportedFile (path : String)
  /-- A grammar cannot be loaded. -/
  | grammarUnavailable (grammar reason : String)
  /-- A file cannot be parsed. -/
  | unparsable (path reason : String)
  /-- The declarations of a parsed file cannot be read. -/
  | unreadable (reader path reason : String)
  /-- No parser can be made at all. -/
  | parsingUnavailable (reason : String)
  /-- The run was cancelled. -/
  | cancelled (stage : Stage)
  deriving DecidableEq

namespace Fault

/-- A message with its reason, if there is one. -/
def withReason (message reason : String) : String :=
  if reason = "" then message else message ++ ": " ++ reason

/-- What is said about a fault. -/
def message : Fault → String
  | unsupportedFile path => "Unsupported file kind: " ++ path
  | grammarUnavailable grammar reason =>
    withReason ("Failed to load " ++ grammar ++ " grammar") reason
  | unparsable path reason => withReason ("Failed to parse " ++ path) reason
  | unreadable reader path reason => reader ++ " failed on " ++ path ++ ": " ++ reason
  | parsingUnavailable reason => "Failed to initialize tree-sitter: " ++ reason
  | cancelled stage => "Analysis cancelled " ++ stage.name

end Fault

end CodeGraph
