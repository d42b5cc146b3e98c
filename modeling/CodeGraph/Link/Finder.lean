import CodeGraph.Link.Resolve

/-!
# Finding links

A `LinkFinder` finds the links of one batch after another.  It makes a `Directory` of each batch and
looks declarations up in it instead of going through the batch.  The search for the calls of a name
is made when it is first needed and kept for later batches.
-/

namespace CodeGraph

/-! ## Directories -/

/-- Declarations under their keys; an entry hides those of its key behind it. -/
abbrev Groups := List (String × List Declaration)

namespace Groups

/-- The declarations of a key. -/
def under (groups : Groups) (key : String) : List Declaration := (groups.lookup key).getD []

/-- Adds a declaration under its key. -/
def add (key : Declaration → String) (groups : Groups) (d : Declaration) : Groups :=
  (key d, groups.under (key d) ++ [d]) :: groups

end Groups

/-- The declarations of a batch by id, name and path. -/
structure Directory where
  byId : List (String × Declaration)
  byName : Groups
  byPath : Groups

namespace Directory

/-- The directory of no declarations. -/
def empty : Directory := ⟨[], [], []⟩

/-- Enters a declaration; it hides an earlier one of its id. -/
def add (dir : Directory) (d : Declaration) : Directory :=
  ⟨(d.id, d) :: dir.byId, dir.byName.add Declaration.name d, dir.byPath.add Declaration.path d⟩

/-- A declaration of an id. -/
def withId? (dir : Directory) (id : String) : Option Declaration := dir.byId.lookup id

/-- The directory of a batch. -/
def of (ds : List Declaration) : Directory := ds.foldl add empty

end Directory

/-! ## Searches for calls -/

/-- How the calls of a name are looked for. -/
structure CallSearch where
  /-- Finds the name with an opening parenthesis behind it. -/
  call : List Char → Option Nat
  /-- Finds the same behind the word `new`. -/
  creation : List Char → Option Nat

namespace CallSearch

/-- The search for the calls of a name. -/
def ofName (name : String) : CallSearch :=
  ⟨firstPlace (isCallAt name.toList) none 0, firstPlace (isCreationAt name.toList) none 0⟩

/-- The first call in a text. -/
def first (search : CallSearch) (text : List Char) : Option Nat :=
  (search.call text).or (search.creation text)

end CallSearch

/-- The searches made so far, by name. -/
abbrev SearchTable := List (String × CallSearch)

/-- The search for the calls of a name, which is kept if it has to be made. -/
def SearchTable.search (searches : SearchTable) (name : String) : CallSearch × SearchTable :=
  match searches.lookup name with
  | some search => (search, searches)
  | none => (.ofName name, (name, .ofName name) :: searches)

/-- What a step finds for all items, with a state that is passed from item to item. -/
def gather {σ α β : Type} (step : σ → α → List β × σ) : σ → List α → List β × σ
  | state, [] => ([], state)
  | state, item :: rest =>
    let (found, state) := step state item
    let (others, state) := gather step state rest
    (found ++ others, state)

/-! ## Passes -/

/-- The state from which links are found. -/
structure LinkFinder where
  /-- The directory of the last batch. -/
  directory : Directory
  searches : SearchTable

namespace LinkFinder

/-- The finder before its first batch. -/
def fresh : LinkFinder := ⟨.empty, []⟩

/-- Makes the directory of a new batch. -/
def enter (finder : LinkFinder) (ds : List Declaration) : LinkFinder :=
  { finder with directory := .of ds }

/-- Every member whose owner is in the batch. -/
def ownershipLinks (finder : LinkFinder) (ds : List Declaration) : List Link :=
  ds.filterMap fun d =>
    ownershipLink? ((filled? d.owner).bind finder.directory.withId?).toList d

/-- The links from a type to the types that it extends and implements. -/
def inheritanceLinksOf (finder : LinkFinder) (d : Declaration) : List Link :=
  let link (kind : LinkKind) (verb name : String) : Option Link :=
    baseLink? (finder.directory.byName.under name) kind verb d name
  if d.kind.isType then
    (filled? d.traits.base).toList.filterMap (link .inheritance " extends ") ++
      d.traits.interfaces.filterMap (link .implementation " implements ")
  else []

/-- The links from types to the types that they extend and implement. -/
def inheritanceLinks (finder : LinkFinder) (ds : List Declaration) : List Link :=
  ds.flatMap finder.inheritanceLinksOf

/-- The links for the import statements of a file that declares something. -/
def importLinksOf (finder : LinkFinder) (table : ExtensionTable) (file : SourceFile) : List Link :=
  match representative? (finder.directory.byPath.under file.path) with
  | none => []
  | some source =>
    let language := table.language file.path
    (Import.scan language file.content.toList).flatMap fun statement =>
      statement.names.filterMap fun name =>
        importLink? (finder.directory.byName.under name) file language source statement name

/-- The links for the import statements of all files. -/
def importLinks (finder : LinkFinder) (table : ExtensionTable) (files : List SourceFile) :
    List Link :=
  files.flatMap (finder.importLinksOf table)

/-- The link for a call at an offset of a body to one of the declarations of its name. -/
def callLinkAt? (candidates : List Declaration) (caller : Declaration) (body : List Char)
    (offset : Nat) : Option Link :=
  match bestMatch caller candidates with
  | none => none
  | some target =>
    if target.id = caller.id then none
    else
      some (.shown .call caller.id target.id (positionIn caller.span.start.line body offset)
        (caller.name ++ " calls " ++ target.name))

/-- The link for the first call of a name in the body of a declaration. -/
def callLink (caller : Declaration) (body : List Char) (finder : LinkFinder) (name : String) :
    List Link × LinkFinder :=
  if name = caller.name then ([], finder)
  else
    let (search, searches) := finder.searches.search name
    let found :=
      (search.first body).bind (callLinkAt? (finder.directory.byName.under name) caller body)
    (found.toList, { finder with searches })

/-- The links for the calls in the body of a function or method. -/
def callLinksOf (names : List String) (texts : List (String × List (List Char)))
    (finder : LinkFinder) (d : Declaration) : List Link × LinkFinder :=
  if d.kind.isCallable then
    match callerBody? texts d with
    | some (c :: body) => gather (callLink d (c :: body)) finder names
    | _ => ([], finder)
  else ([], finder)

/-- The links for the calls in all bodies. -/
def callLinks (finder : LinkFinder) (ds : List Declaration) (files : List SourceFile) :
    List Link × LinkFinder :=
  gather (callLinksOf (calledNames ds) (linesByPath files)) finder ds

/-- The links of a batch of declarations, each id once. -/
def resolve (finder : LinkFinder) (table : ExtensionTable) (ds : List Declaration)
    (files : List SourceFile) : List Link × LinkFinder :=
  let finder := finder.enter ds
  let found := finder.ownershipLinks ds ++ finder.inheritanceLinks ds ++
    finder.importLinks table files
  let (calls, finder) := finder.callLinks ds files
  (withoutRepeats Link.id (found ++ calls), finder)

end LinkFinder

end CodeGraph
