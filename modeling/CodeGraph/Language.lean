/-!
# Languages

The four languages whose declarations are read, with their names and the grammars that parse them.
-/

namespace CodeGraph

/-- A language whose declarations are read. -/
inductive Language where
  | javascript
  | typescript
  | java
  | python
  deriving DecidableEq

namespace Language

/-- All languages. -/
def all : List Language := [javascript, typescript, java, python]

/-- The name of a language; its usual grammar has the same name. -/
def name : Language → String
  | javascript => "javascript"
  | typescript => "typescript"
  | java => "java"
  | python => "python"

/-- The language of a name. -/
def ofName? (name : String) : Option Language := all.find? fun language => language.name = name

/-- The grammar that parses a language. -/
def grammar (language : Language) : String := language.name

theorem ofName?_name (language : Language) : ofName? language.name = some language := by
  cases language <;> decide

end Language

/-- The names of the grammars there are. -/
def grammarNames : List String := ["javascript", "typescript", "tsx", "java", "python"]

end CodeGraph
