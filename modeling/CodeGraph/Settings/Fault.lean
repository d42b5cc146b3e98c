import CodeGraph.Files.Fault

/-!
# Faults of settings

A settings file that is missing or that holds no JSON object is passed over.  These are the faults
that are not passed over.
-/

namespace CodeGraph

/-- What is wrong with the settings. -/
inductive SettingsFault where
  /-- A file cannot be looked for. -/
  | file (f : Files.FileFault)
  /-- A file is not UTF-8. -/
  | undecodable
  /-- A whole number has too many digits to be read. -/
  | longNumeral
  /-- A value that must have members has none. -/
  | notObject
  /-- A value that must be a text is none. -/
  | notText
  /-- An infinite number stands for a whole one. -/
  | infinite
  /-- A value that must list patterns does not. -/
  | notPatterns
  /-- A value that must name a file does not. -/
  | notFileName
  /-- A name that must stand for a level stands for another text. -/
  | textForLevel
  /-- A name that must stand for a level stands for a table. -/
  | tableForLevel
  deriving DecidableEq

end CodeGraph
