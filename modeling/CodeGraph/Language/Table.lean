import CodeGraph.Json.Value
import CodeGraph.Language
import CodeGraph.Path

/-!
# The extension table

A file's language is looked up by the extension of its path.  The table starts with the usual
extensions (`ExtensionTable.standard`); settings may add extensions or give a known one another
language (`extend`).  Files with the extension `.tsx` have a grammar of their own.
-/

namespace CodeGraph

/-- Languages by extension, in the order in which the extensions were added. -/
structure ExtensionTable where
  entries : List (String × Language)

namespace ExtensionTable

/-- The extensions known from the start. -/
def standard : ExtensionTable :=
  ⟨[(".js", .javascript), (".jsx", .javascript), (".mjs", .javascript), (".cjs", .javascript),
    (".ts", .typescript), (".tsx", .typescript), (".mts", .typescript), (".cts", .typescript),
    (".java", .java), (".py", .python), (".pyw", .python)]⟩

/-- An extension as it stands in the table: in lower case and with a dot in front. -/
def key (ext : String) : String :=
  if ext.toList.head? = some '.' then String.ofList (Text.lower ext.toList)
  else String.ofList ('.' :: Text.lower ext.toList)

/-- Sets the language of a key, in place if the key is there. -/
def insertInto (key : String) (language : Language) :
    List (String × Language) → List (String × Language)
  | [] => [(key, language)]
  | (k, l) :: rest =>
    if k = key then (k, language) :: rest else (k, l) :: insertInto key language rest

/-- Sets the language of an extension. -/
def set (table : ExtensionTable) (ext : String) (language : Language) : ExtensionTable :=
  ⟨insertInto (key ext) language table.entries⟩

/-- The language a settings value names. -/
def language? : Json.Value → Option Language
  | .text name => Language.ofName? name
  | _ => none

/-- Adds extensions one by one; the first value that names no language is the fault. -/
def extend (table : ExtensionTable) : List (String × Json.Value) → Except Json.Value ExtensionTable
  | [] => .ok table
  | (ext, value) :: rest =>
    match language? value with
    | some language => (table.set ext language).extend rest
    | none => .error value

/-- What is said about a value that names no language. -/
def unknownLanguage (value : Json.Value) : String :=
  String.ofList value.literal ++ " is not a valid Language"

/-- The language of a path, if its extension is in the table. -/
def language (table : ExtensionTable) (path : String) : Option Language :=
  table.entries.lookup (String.ofList (Path.extension path.toList))

/-- The path has a language. -/
def supports (table : ExtensionTable) (path : String) : Bool := (table.language path).isSome

/-- The grammar for a path of a language: an extension with a grammar of its own has that one. -/
def grammarOf (language : Language) (path : String) : String :=
  if Path.extension path.toList = ".tsx".toList then "tsx" else language.grammar

/-- The grammar for a path. -/
def grammar (table : ExtensionTable) (path : String) : Option String :=
  (table.language path).map fun language => grammarOf language path

end ExtensionTable

end CodeGraph
