import CodeGraph.Declaration

/-!
# Links

A `Link` leads from one declaration to another, both given by their ids.  How far it can be trusted
depends on its kind alone: ownership is certain, a textual call is the least certain.
-/

namespace CodeGraph

/-- How one declaration depends on another. -/
inductive LinkKind where
  | call
  | inheritance
  | importing
  | ownership
  | implementation
  deriving DecidableEq

namespace LinkKind

/-- All kinds, in the order in which reports count them. -/
def all : List LinkKind := [call, inheritance, importing, ownership, implementation]

/-- The name of a kind in reports. -/
def name : LinkKind → String
  | call => "call"
  | inheritance => "inheritance"
  | importing => "import"
  | ownership => "ownership"
  | implementation => "implements"

/-- The kind of a name. -/
def ofName? (name : String) : Option LinkKind := all.find? fun kind => kind.name = name

/-- The confidence in links of a kind, in tenths. -/
def confidence : LinkKind → Nat
  | ownership => 10
  | inheritance => 9
  | implementation => 9
  | importing => 8
  | call => 7

end LinkKind

/-- The id of a link. -/
def linkId (kind : LinkKind) (source target : String) : String :=
  kind.name ++ ":" ++ source ++ ":" ++ target

/-- A link between two declarations. -/
structure Link where
  kind : LinkKind
  /-- The id of the declaration it leads from. -/
  source : String
  /-- The id of the declaration it leads to. -/
  target : String
  /-- Where the text shows the link. -/
  site : Option Position
  /-- The link in words. -/
  context : Option String
  /-- The link leaves the project. -/
  isExternal : Bool
  deriving DecidableEq

namespace Link

/-- The id of a link. -/
def id (l : Link) : String := linkId l.kind l.source l.target

/-- A link shown at a position. -/
def shown (kind : LinkKind) (source target : String) (site : Position) (context : String) : Link :=
  ⟨kind, source, target, some site, some context, false⟩

open Json (Value)

/-- The report of a link. -/
def report (l : Link) : Value :=
  .object
    [("id", .text l.id), ("type", .text l.kind.name), ("source", .text l.source),
      ("target", .text l.target),
      ("confidence", .number (.ofDecimal false l.kind.confidence (-1))),
      ("metadata", .object
        (optionalMember "location" (l.site.map Position.report) ++
          optionalMember "context" ((filled? l.context).map .text) ++
          flagMember "is_external" l.isExternal))]

end Link

/-- How many links of each kind there are. -/
def countByKind (links : List Link) : List (LinkKind × Nat) :=
  LinkKind.all.map fun kind => (kind, links.countP fun l => l.kind = kind)

/-- The report of the numbers of links. -/
def countReport (links : List Link) : Json.Value :=
  .object ((countByKind links).map fun (kind, n) => (kind.name, .integer n))

end CodeGraph
