import CodeGraph.Text.Quoted

/-!
# Faults of files

Looking for a file and opening one can fail for the reasons listed in `FileFault`.  Most of them
only say that nothing is there (`isAbsence`); a name that is too long says more than that.
-/

namespace CodeGraph.Files

open CodeGraph.Text

/-- Why a file cannot be opened. -/
inductive FileFault where
  | notFound
  /-- The path leads through something that is no folder. -/
  | notFolder
  | isFolder
  /-- A name on the path or the path as a whole is too long. -/
  | nameTooLong
  | tooManyLinks
  deriving DecidableEq

namespace FileFault

/-- The number of a fault. -/
def number : FileFault → Nat
  | notFound => 2
  | notFolder => 20
  | isFolder => 21
  | nameTooLong => 36
  | tooManyLinks => 40

/-- What is said about a fault. -/
def text : FileFault → String
  | notFound => "No such file or directory"
  | notFolder => "Not a directory"
  | isFolder => "Is a directory"
  | nameTooLong => "File name too long"
  | tooManyLinks => "Too many levels of symbolic links"

/-- What is said about a fault at a path. -/
def message (f : FileFault) (path : String) : String :=
  "[Errno " ++ toString f.number ++ "] " ++ f.text ++ ": " ++ String.ofList (quoted path.toList)

/-- The fault only says that nothing is there. -/
def isAbsence : FileFault → Bool
  | notFound => true
  | notFolder => true
  | isFolder => false
  | nameTooLong => false
  | tooManyLinks => true

end FileFault

/-- What is found where a fault may only say that nothing is there. -/
def presentIn {α : Type} : Except FileFault α → Except FileFault (Option α)
  | .ok found => .ok (some found)
  | .error f => if f.isAbsence then .ok none else .error f

end CodeGraph.Files
