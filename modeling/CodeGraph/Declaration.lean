import CodeGraph.Json.Value
import CodeGraph.Language

/-!
# Declarations

A `Declaration` is a class, interface, function or method found in a file.  Its id is made of the
path, the first line and the name; a member carries the id of the type that declares it as its
owner.  `withoutRepeats` keeps the first of the items that share a key; results never repeat an id.
-/

namespace CodeGraph

/-- What is declared. -/
inductive DeclarationKind where
  | classType
  | function
  | method
  | interfaceType
  deriving DecidableEq

namespace DeclarationKind

/-- All kinds. -/
def all : List DeclarationKind := [classType, function, method, interfaceType]

/-- The name of a kind in reports. -/
def name : DeclarationKind → String
  | classType => "class"
  | function => "function"
  | method => "method"
  | interfaceType => "interface"

/-- The kind of a name. -/
def ofName? (name : String) : Option DeclarationKind := all.find? fun kind => kind.name = name

/-- Classes and interfaces: the kinds that have bases and members. -/
def isType : DeclarationKind → Bool
  | classType => true
  | interfaceType => true
  | function => false
  | method => false

/-- Functions and methods: the kinds whose bodies make calls. -/
def isCallable : DeclarationKind → Bool
  | classType => false
  | interfaceType => false
  | function => true
  | method => true

end DeclarationKind

/-- Who may use a declaration. -/
inductive Visibility where
  | publicAccess
  | privateAccess
  | protectedAccess
  deriving DecidableEq

namespace Visibility

/-- All degrees of visibility. -/
def all : List Visibility := [publicAccess, privateAccess, protectedAccess]

/-- The name of a degree in reports. -/
def name : Visibility → String
  | publicAccess => "public"
  | privateAccess => "private"
  | protectedAccess => "protected"

/-- The degree of a name. -/
def ofName? (name : String) : Option Visibility := all.find? fun v => v.name = name

end Visibility

/-- A place in a file: lines are counted from one, columns from zero. -/
structure Position where
  line : Int
  column : Int
  deriving DecidableEq

/-- The stretch of a file from one position to another. -/
structure Span where
  start : Position
  stop : Position
  deriving DecidableEq

/-- A parameter with its declared type, if one is written. -/
structure Parameter where
  name : String
  type : Option String
  deriving DecidableEq

/-- What can be read off the text of a declaration. -/
structure Traits where
  visibility : Option Visibility := none
  isStatic : Bool := false
  isAsync : Bool := false
  isAbstract : Bool := false
  returnType : Option String := none
  parameters : List Parameter := []
  decorators : List String := []
  doc : Option String := none
  /-- The type that is extended. -/
  base : Option String := none
  /-- The types that are implemented. -/
  interfaces : List String := []
  deriving DecidableEq

/-- A class, interface, function or method of a file. -/
structure Declaration where
  name : String
  kind : DeclarationKind
  language : Language
  path : String
  span : Span
  traits : Traits
  /-- The id of the type that declares a member. -/
  owner : Option String
  deriving DecidableEq

/-- The id of the declaration of a name on a line of a file. -/
def declarationId (path : String) (line : Int) (name : String) : String :=
  path ++ ":" ++ toString line ++ ":" ++ name

namespace Declaration

/-- The id of a declaration. -/
def id (d : Declaration) : String := declarationId d.path d.span.start.line d.name

end Declaration

/-! ## Repeats -/

/-- The items whose key is not in `seen` and was not met before. -/
@[grind =]
def freshItems {α κ : Type} [DecidableEq κ] (key : α → κ) (seen : List κ) : List α → List α
  | [] => []
  | item :: rest =>
    if key item ∈ seen then freshItems key seen rest
    else item :: freshItems key (key item :: seen) rest

/-- The first item of every key, in order. -/
def withoutRepeats {α κ : Type} [DecidableEq κ] (key : α → κ) (items : List α) : List α :=
  freshItems key [] items

/-- The first declaration of every id, in order. -/
def distinctDeclarations (ds : List Declaration) : List Declaration :=
  withoutRepeats Declaration.id ds

/-! ## Reports -/

open Json (Value)

/-- A text that is there and not empty. -/
def filled? (text : Option String) : Option String := text.filter (· ≠ "")

/-- A member of an object, if its value is there. -/
def optionalMember (key : String) (value : Option Value) : List (String × Value) :=
  match value with
  | some v => [(key, v)]
  | none => []

/-- A member that is shown only when it holds. -/
def flagMember (key : String) (holds : Bool) : List (String × Value) :=
  if holds then [(key, .bool true)] else []

/-- A member that is shown only when the list has items. -/
def listMember (key : String) (items : List Value) : List (String × Value) :=
  if items.isEmpty then [] else [(key, .list items)]

/-- The report of a position. -/
def Position.report (p : Position) : Value :=
  .object [("line", .integer p.line), ("column", .integer p.column)]

/-- The report of a parameter; an empty type is not shown. -/
def Parameter.report (p : Parameter) : Value :=
  .object (("name", .text p.name) :: optionalMember "type" ((filled? p.type).map .text))

/-- The report of the traits: those that are unset or empty are not shown. -/
def Traits.report (t : Traits) : Value :=
  .object
    (optionalMember "visibility" (t.visibility.map fun v => .text v.name) ++
      flagMember "is_static" t.isStatic ++ flagMember "is_async" t.isAsync ++
      flagMember "is_abstract" t.isAbstract ++
      optionalMember "return_type" ((filled? t.returnType).map .text) ++
      listMember "parameters" (t.parameters.map Parameter.report) ++
      listMember "decorators" (t.decorators.map .text) ++
      optionalMember "docstring" ((filled? t.doc).map .text) ++
      optionalMember "extends_from" ((filled? t.base).map .text) ++
      listMember "implements" (t.interfaces.map .text))

/-- The report of a declaration. -/
def Declaration.report (d : Declaration) : Value :=
  .object
    [("id", .text d.id), ("name", .text d.name), ("type", .text d.kind.name),
      ("language", .text d.language.name), ("file_path", .text d.path),
      ("location", .object [("start", d.span.start.report), ("end", d.span.stop.report)]),
      ("metadata", d.traits.report),
      ("parent_id", match d.owner with | some id => .text id | none => .null)]

end CodeGraph
