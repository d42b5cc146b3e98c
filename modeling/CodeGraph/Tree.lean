/-!
# Trees

The result of parsing a file is a tree of labelled nodes over the bytes of the file.  A node's
label says what kind of phrase it is, where its bytes start and stop, whether the grammar gives it
a name of its own, and which field of its parent it fills.
-/

namespace CodeGraph

/-- What is known of a node apart from its children. -/
structure Label where
  /-- The kind of phrase, in the words of the grammar. -/
  kind : String
  /-- The grammar names the phrase; punctuation and keywords are unnamed. -/
  named : Bool
  /-- The offset of the first byte. -/
  start : Nat
  /-- The offset behind the last byte. -/
  stop : Nat
  /-- The field of the parent that the node fills. -/
  field : Option String
  deriving DecidableEq

/-- A node with its children in order. -/
inductive Tree where
  | node (label : Label) (children : List Tree)

namespace Tree

/-- The label of a node. -/
def label : Tree → Label
  | node label _ => label

/-- The children of a node. -/
def children : Tree → List Tree
  | node _ children => children

/-- The kind of a node. -/
def kind (t : Tree) : String := t.label.kind

/-- The first child that fills a field. -/
def fieldChild? (t : Tree) (field : String) : Option Tree :=
  t.children.find? fun child => child.label.field = some field

/-- The first child of a kind. -/
def kindChild? (t : Tree) (kind : String) : Option Tree :=
  t.children.find? fun child => child.kind = kind

/-- The children that the grammar names. -/
def namedChildren (t : Tree) : List Tree := t.children.filter fun child => child.label.named

/-! ## Size -/

mutual

/-- The number of nodes of a tree. -/
def size : Tree → Nat
  | node _ children => 1 + sizes children

/-- The number of nodes of some trees. -/
def sizes : List Tree → Nat
  | [] => 0
  | t :: rest => size t + sizes rest

end

theorem size_eq (t : Tree) : t.size = 1 + sizes t.children := by
  cases t; simp [size, children]

@[simp]
theorem sizes_append (s t : List Tree) : sizes (s ++ t) = sizes s + sizes t := by
  induction s with
  | nil => simp [sizes]
  | cons a s ih => simp [sizes, ih, Nat.add_assoc]

theorem size_le_sizes {t : Tree} {ts : List Tree} (h : t ∈ ts) : t.size ≤ sizes ts := by
  induction ts with
  | nil => cases h
  | cons a ts ih =>
    rw [sizes]
    rcases List.mem_cons.1 h with rfl | h
    · omega
    · have := ih h; omega

theorem size_lt_of_mem_children {t child : Tree} (h : child ∈ t.children) :
    child.size < t.size := by
  have := size_le_sizes h
  rw [size_eq t]; omega

theorem size_lt_of_fieldChild? {t child : Tree} {field : String}
    (h : t.fieldChild? field = some child) : child.size < t.size :=
  size_lt_of_mem_children (List.mem_of_find?_eq_some h)

theorem size_lt_of_namedChildren {t child : Tree} (h : t.namedChildren.head? = some child) :
    child.size < t.size :=
  size_lt_of_mem_children (List.mem_filter.1 (List.mem_of_head? h)).1

end Tree

end CodeGraph
