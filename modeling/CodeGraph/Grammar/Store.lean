import CodeGraph.Fault
import CodeGraph.Language.Table
import CodeGraph.ParsedFile

/-!
# The grammar store

Parsing needs a parser and a grammar, both from outside (`Parser`, `LoaderTable`).  The store makes
sure once that a parser can be made and loads each grammar when it is first needed.  A loaded
grammar is kept until `cleanup`; a load that fails leaves nothing behind and is tried again.
-/

namespace CodeGraph

/-- What a parser answers. -/
inductive ParseAnswer where
  /-- A tree; `hasError` says that the text was not fully understood. -/
  | tree (root : Tree) (hasError : Bool)
  /-- Nothing at all. -/
  | nothing
  /-- The parser broke down. -/
  | broken (reason : String)

/-- A parser: its answer for a grammar and a text. -/
abbrev Parser := String → String → ParseAnswer

/-- What the loader of a grammar answers, always the same. -/
inductive LoadAnswer where
  | loaded
  | broken (reason : String)
  deriving DecidableEq

/-- The loaders of grammars, by name. -/
abbrev LoaderTable := String → Option LoadAnswer

/-- Every known grammar loads. -/
def LoaderTable.standard : LoaderTable := fun grammar =>
  if grammarNames.contains grammar then some .loaded else none

/-- What parsing depends on. -/
structure Toolbox where
  /-- The languages of extensions. -/
  table : ExtensionTable
  loaders : LoaderTable
  parser : Parser
  /-- The reason why no parser can be made, if none can. -/
  unavailable : Option String
  /-- Trees with errors are refused. -/
  strict : Bool

/-- The state of the store. -/
structure GrammarStore where
  /-- A parser could be made since the last cleanup. -/
  ready : Bool
  /-- The grammars kept, each with the number of the loader call that gave it. -/
  kept : List (String × Nat)
  /-- The grammars whose loaders were called, in the order of the calls. -/
  calls : List String
  deriving DecidableEq

namespace GrammarStore

/-- The store before its first use. -/
def empty : GrammarStore := ⟨false, [], []⟩

/-- The names of the grammars kept. -/
def names (store : GrammarStore) : List String := store.kept.map Prod.fst

/-- Makes sure that a parser can be made; done once. -/
def prepare (unavailable : Option String) (store : GrammarStore) :
    Except Fault Unit × GrammarStore :=
  if store.ready then (.ok (), store)
  else
    match unavailable with
    | some reason => (.error (.parsingUnavailable reason), store)
    | none => (.ok (), { store with ready := true })

/-- Forgets all grammars, and that a parser could be made. -/
def cleanup (store : GrammarStore) : GrammarStore := { store with ready := false, kept := [] }

/-- The grammar of a name, as the number of the loader call that gave it. -/
def load (loaders : LoaderTable) (grammar : String) (store : GrammarStore) :
    Except Fault Nat × GrammarStore :=
  match store.kept.lookup grammar with
  | some number => (.ok number, store)
  | none =>
    match loaders grammar with
    | none => (.error (.grammarUnavailable grammar "no loader registered"), store)
    | some answer =>
      let number := store.calls.length
      let calls := store.calls ++ [grammar]
      match answer with
      | .broken reason => (.error (.grammarUnavailable grammar reason), { store with calls })
      | .loaded => (.ok number, { store with calls, kept := store.kept ++ [(grammar, number)] })

/-- The parsed file of a parser's answer. -/
def accept (strict : Bool) (path content : String) (language : Language) (grammar : String) :
    ParseAnswer → Except Fault ParsedFile
  | .broken reason => .error (.unparsable path reason)
  | .nothing => .error (.unparsable path "parser returned no tree")
  | .tree root hasError =>
    if strict && hasError then .error (.unparsable path "syntax errors in source")
    else .ok ⟨path, language, grammar, Text.Utf8.encode content.toList, root, hasError⟩

/-- Parses a text as the file at a path, with the given grammar or that of the path.  The parser is
asked by the name of the grammar: what is kept under a name came from the loader of this name. -/
def parse (tools : Toolbox) (path content : String) (grammar : Option String)
    (store : GrammarStore) : Except Fault ParsedFile × GrammarStore :=
  match store.prepare tools.unavailable with
  | (.error f, store) => (.error f, store)
  | (.ok (), store) =>
    match tools.table.language path with
    | none => (.error (.unsupportedFile path), store)
    | some language =>
      let name := (filled? grammar).getD (ExtensionTable.grammarOf language path)
      match store.load tools.loaders name with
      | (.error f, store) => (.error f, store)
      | (.ok _, store) =>
        (accept tools.strict path content language name (tools.parser name content), store)

end GrammarStore

/-! ## Steps -/

/-- A use of the store from outside. -/
inductive GrammarStep where
  | prepare
  | cleanup
  | load (grammar : String)
  | parse (path content : String) (grammar : Option String)

/-- What a use of the store gives. -/
inductive GrammarAnswer where
  | done
  | grammar (number : Nat)
  | file (file : ParsedFile)
  | fault (f : Fault)

/-- One use of the store. -/
def GrammarStep.run (tools : Toolbox) (store : GrammarStore) :
    GrammarStep → GrammarAnswer × GrammarStore
  | prepare =>
    match store.prepare tools.unavailable with
    | (.ok (), store) => (.done, store)
    | (.error f, store) => (.fault f, store)
  | cleanup => (.done, store.cleanup)
  | load grammar =>
    match store.load tools.loaders grammar with
    | (.ok number, store) => (.grammar number, store)
    | (.error f, store) => (.fault f, store)
  | parse path content grammar =>
    match store.parse tools path content grammar with
    | (.ok file, store) => (.file file, store)
    | (.error f, store) => (.fault f, store)

end CodeGraph
