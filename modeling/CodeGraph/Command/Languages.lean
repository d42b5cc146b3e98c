import CodeGraph.Command.Analyze

/-!
# Listing languages

The list shows every extension with its language and its grammar, in the order of the extensions.
A check also loads every grammar and fails if one cannot be loaded.
-/

namespace CodeGraph.Command

open CodeGraph.Files

/-- A text filled up with blanks to a width. -/
def padded (width : Nat) (text : String) : String :=
  text ++ String.ofList (List.replicate (width - text.length) ' ')

/-- Texts in order. -/
def inTextOrder (texts : List String) : List String :=
  texts.mergeSort fun a b => decide (a ≤ b)

/-- A row of the list. -/
structure LanguageRow where
  extension : String
  language : Language
  grammar : Option String
  deriving DecidableEq

/-- The text of a row. -/
def LanguageRow.text (row : LanguageRow) : String :=
  padded 8 row.extension ++ " " ++ padded 12 row.language.name ++ " " ++
    row.grammar.getD "None" ++ "\n"

/-- The rows of a table. -/
def rowsOf (table : ExtensionTable) : List LanguageRow :=
  (table.entries.mergeSort fun a b => decide (a.1 ≤ b.1)).map fun (ext, language) =>
    ⟨ext, language, table.grammar ("file" ++ ext)⟩

/-- The grammars of some rows, each once and in order; none if a row has no grammar. -/
def grammarsOf? (rows : List LanguageRow) : Option (List String) :=
  (rows.mapM LanguageRow.grammar).map fun grammars => inTextOrder (withoutRepeats id grammars)

/-- What comes of loading some grammars one after the other. -/
def loadAll (loaders : LoaderTable) (store : GrammarStore) :
    List String → List (String × Option Fault)
  | [] => []
  | grammar :: rest =>
    match store.load loaders grammar with
    | (.ok _, store) => (grammar, none) :: loadAll loaders store rest
    | (.error f, store) => (grammar, some f) :: loadAll loaders store rest

/-- The line of a grammar that was loaded or not. -/
def checkLine (checked : String × Option Fault) : String :=
  match checked.2 with
  | none => padded 12 checked.1 ++ " ok\n"
  | some f => padded 12 checked.1 ++ " FAILED  " ++ f.message ++ "\n"

/-- The details about what was loaded. -/
def checkDetails (checked : List (String × Option Fault)) : List Notice :=
  (checked.filter fun c => c.2.isNone).map fun c => loadedDetail c.1

/-- The list of languages, with the grammars checked; `before` has been said already. -/
def checkedList (host : Host) (journal : Journal) (rows : List LanguageRow)
    (before : List Notice) : Except CommandFault CommandResult :=
  match grammarsOf? rows with
  | none => .error .noGrammar
  | some grammars =>
    let checked := loadAll host.loaders GrammarStore.empty grammars
    let text :=
      String.join (rows.map LanguageRow.text) ++ "\n" ++ String.join (checked.map checkLine)
    let notices := before ++ if journal.showsDetails then checkDetails checked else []
    .ok ⟨if checked.any fun c => c.2.isSome then 1 else 0, text, notices,
      journal.note host.disk notices, []⟩

/-- The list of languages under the settings of a folder. -/
def languages (host : Host) (journal : Journal) (request : LanguagesRequest) :
    Except CommandFault CommandResult := do
  let place ← host.locate request.path
  let isFolder := (← host.present? place).any Node.isFolder
  let project ← if isFolder then (host.settled place).map some else pure none
  let settings ← host.settings project
  let options ← (Settings.analysis settings).mapError .settings
  match ExtensionTable.standard.extend options.extensions with
  | .error value => return ⟨1, "", [.line (unknownLanguageLine value)], host.disk, []⟩
  | .ok table =>
    let rows := rowsOf table
    let unknown :=
      if journal.showsDetails then
        unknownDetails table (table.entries.map fun (ext, _) => "file" ++ ext)
      else []
    if request.check then checkedList host journal rows unknown
    else
      return ⟨0, String.join (rows.map LanguageRow.text), unknown,
        journal.note host.disk unknown, []⟩

end CodeGraph.Command
