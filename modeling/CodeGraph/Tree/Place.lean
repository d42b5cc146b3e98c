import CodeGraph.Tree

/-!
# Places

A `Place` is a node together with the way to it: its parent's place and the siblings in front of
it.  `children` gives the places of a node's children; going from a place to a child and back to
the parent ends at the same place (`parent?_of_mem_children`).
-/

namespace CodeGraph

/-- A node of a tree with its surroundings. -/
inductive Place where
  /-- The root of a tree. -/
  | root (tree : Tree)
  /-- A child of the node at `parent`; `before` holds the siblings in front of it, nearest first. -/
  | child (parent : Place) (before : List Tree) (tree : Tree)

namespace Place

/-- The node. -/
def tree : Place → Tree
  | root tree => tree
  | child _ _ tree => tree

/-- The kind of the node. -/
def kind (p : Place) : String := p.tree.kind

/-- The place of the parent. -/
def parent? : Place → Option Place
  | root _ => none
  | child parent _ _ => some parent

/-- The siblings in front of the node, nearest first. -/
def before : Place → List Tree
  | root _ => []
  | child _ before _ => before

/-- The places of some siblings, after those in `before`. -/
def siblings (parent : Place) (before : List Tree) : List Tree → List Place
  | [] => []
  | t :: rest => child parent before t :: siblings parent (t :: before) rest

/-- The places of the children. -/
def children (p : Place) : List Place := siblings p [] p.tree.children

/-- The place of the first child that fills a field. -/
def fieldChild? (p : Place) (field : String) : Option Place :=
  p.children.find? fun child => child.tree.label.field = some field

/-- The place of the first child of a kind. -/
def kindChild? (p : Place) (kind : String) : Option Place :=
  p.children.find? fun child => child.kind = kind

@[simp]
theorem map_tree_siblings (parent : Place) (before ts : List Tree) :
    (siblings parent before ts).map tree = ts := by
  induction ts generalizing before with
  | nil => rfl
  | cons t ts ih => simp [siblings, tree, ih]

@[simp]
theorem map_tree_children (p : Place) : p.children.map tree = p.tree.children :=
  map_tree_siblings p [] p.tree.children

theorem parent?_of_mem_siblings {parent p : Place} {before ts : List Tree}
    (h : p ∈ siblings parent before ts) : p.parent? = some parent := by
  induction ts generalizing before with
  | nil => cases h
  | cons t ts ih =>
    rcases List.mem_cons.1 h with rfl | h
    · rfl
    · exact ih h

theorem parent?_of_mem_children {p child : Place} (h : child ∈ p.children) :
    child.parent? = some p := parent?_of_mem_siblings h

end Place

end CodeGraph
