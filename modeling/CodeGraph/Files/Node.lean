import CodeGraph.Path

/-!
# Files and folders

A `Node` is what stands under a name: a file, a link, or a folder with further names in any order.
A `Location` is the list of names that leads from the root to a node.  `at?` finds the node of a
location without following links, and `put` sets it (`at?_put_self`).
-/

namespace CodeGraph.Files

/-- What stands under a name. -/
inductive Node where
  | file (content : List UInt8)
  | link (target : String)
  | folder (entries : List (String × Node))

/-- The names from the root to a node. -/
abbrev Location := List String

/-- The text of a location. -/
def Location.text (place : Location) : String := "/" ++ Path.join place

namespace Node

/-- The entry of a name. -/
@[grind =]
def child? (name : String) : List (String × Node) → Option Node
  | [] => none
  | (n, node) :: rest => if n = name then some node else child? name rest

/-- Sets the entry of a name: in place if the name is there, else at the end. -/
@[grind =]
def setChild (name : String) (node : Node) : List (String × Node) → List (String × Node)
  | [] => [(name, node)]
  | (n, old) :: rest => if n = name then (n, node) :: rest else (n, old) :: setChild name node rest

/-- The entries of a folder; other nodes have none. -/
def entries : Node → List (String × Node)
  | folder es => es
  | file _ => []
  | link _ => []

/-- The node at a location, no link being followed. -/
def at? : Node → Location → Option Node
  | node, [] => some node
  | node, name :: rest => (child? name node.entries).bind fun inner => inner.at? rest

/-- Sets the node at a location; folders that are missing on the way are made. -/
def put : Node → Location → Node → Node
  | _, [], new => new
  | node, name :: rest, new =>
    let inner := (child? name node.entries).getD (folder [])
    folder (setChild name (inner.put rest new) node.entries)

@[simp]
theorem child?_setChild_self (name : String) (node : Node) (es : List (String × Node)) :
    child? name (setChild name node es) = some node := by
  induction es with
  | nil => simp [setChild, child?]
  | cons e rest ih => grind

@[simp]
theorem at?_put_self (node : Node) (place : Location) (new : Node) :
    (node.put place new).at? place = some new := by
  induction place generalizing node with
  | nil => rfl
  | cons name rest ih => simp [put, at?, entries, child?_setChild_self, ih]

mutual

/-- How many links there are. -/
def linkCount : Node → Nat
  | file _ => 0
  | link _ => 1
  | folder es => linkCountAmong es

/-- How many links there are among some entries. -/
def linkCountAmong : List (String × Node) → Nat
  | [] => 0
  | (_, node) :: rest => node.linkCount + linkCountAmong rest

end

/-- A folder. -/
def isFolder : Node → Bool
  | folder _ => true
  | file _ => false
  | link _ => false

/-- The content of a file. -/
def content? : Node → Option (List UInt8)
  | file content => some content
  | link _ => none
  | folder _ => none

end Node

end CodeGraph.Files
