import CodeGraph.Declaration.Java
import CodeGraph.Declaration.Python
import CodeGraph.Declaration.TypeScript
import CodeGraph.Fault

/-!
# Readers

A `Reader` reads the declarations of a parsed file; it may fail.  Its results never repeat an id.
Every language has a reader; that of Python takes files of its own language only.
-/

namespace CodeGraph

/-- A way to read declarations. -/
structure Reader where
  /-- The name of the reader in messages. -/
  title : String
  /-- The declarations of a file, or the reason why they cannot be read. -/
  read : ParsedFile → Except String (List Declaration)

namespace Reader

/-- The reader of JavaScript. -/
def javascript : Reader := ⟨"JavaScriptExtractor", fun file => .ok (JavaScript.declarations file)⟩

/-- The reader of TypeScript. -/
def typescript : Reader := ⟨"TypeScriptExtractor", fun file => .ok (TypeScript.declarations file)⟩

/-- The reader of Java. -/
def java : Reader := ⟨"JavaExtractor", fun file => .ok (Java.declarations file)⟩

/-- The reader of Python. -/
def python : Reader :=
  ⟨"PythonExtractor", fun file =>
    if file.language = .python then .ok (Python.declarations file)
    else .error ("Not a Python tree: " ++ file.path)⟩

/-- The declarations of a file, each id once. -/
def run (reader : Reader) (file : ParsedFile) : Except Fault (List Declaration) :=
  match reader.read file with
  | .ok ds => .ok (distinctDeclarations ds)
  | .error reason => .error (.unreadable reader.title file.path reason)

/-- The declarations of a file; none if they cannot be read. -/
def runGuarded (reader : Reader) (file : ParsedFile) : List Declaration :=
  match reader.run file with
  | .ok ds => ds
  | .error _ => []

end Reader

/-- The reader of a language, if it has one. -/
abbrev ReaderTable := Language → Option Reader

/-- Every language with its own reader. -/
def ReaderTable.standard : ReaderTable
  | .javascript => some Reader.javascript
  | .typescript => some Reader.typescript
  | .java => some Reader.java
  | .python => some Reader.python

end CodeGraph
