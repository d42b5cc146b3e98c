import CodeGraph.Tree.Place

/-!
# Walking a tree

A visitor is shown the nodes of a tree, parents before children and siblings in order.  It keeps a
state of its own and says at every node whether to go on below it.  `walk` works through a list of
pending places, so that its depth does not grow with the tree; `preorder` is the same walk by
recursion on the tree.
-/

namespace CodeGraph

/-- What a visitor does at a place: its next state, and whether to visit the children. -/
abbrev Visitor (σ : Type) := σ → Place → σ × Bool

/-- The number of nodes at and below some places. -/
def pendingSize (places : List Place) : Nat := Tree.sizes (places.map Place.tree)

@[simp]
theorem pendingSize_cons (p : Place) (places : List Place) :
    pendingSize (p :: places) = p.tree.size + pendingSize places := by
  simp [pendingSize, Tree.sizes]

theorem pendingSize_children_append (p : Place) (places : List Place) :
    pendingSize (p.children ++ places) + 1 = pendingSize (p :: places) := by
  rw [pendingSize_cons]
  simp only [pendingSize, List.map_append, Place.map_tree_children, Tree.sizes_append]
  rw [Tree.size_eq]; omega

/-- Visits the pending places and what is below them; the children of a place come next. -/
def walk {σ : Type} (visit : Visitor σ) : List Place → σ → σ
  | [], state => state
  | p :: pending, state =>
    match visit state p with
    | (state, true) => walk visit (p.children ++ pending) state
    | (state, false) => walk visit pending state
termination_by pending => pendingSize pending
decreasing_by
  · have := pendingSize_children_append p pending; omega
  · rw [pendingSize_cons, Tree.size_eq]; omega

mutual

/-- Visits a place, then, if the visitor goes on, its children from first to last. -/
def preorderAt {σ : Type} (visit : Visitor σ) (state : σ) (around : Tree → Place) : Tree → σ
  | .node label children =>
    let here := around (.node label children)
    match visit state here with
    | (state, true) => preorderSiblings visit state here [] children
    | (state, false) => state

/-- Visits some siblings, after those in `before`. -/
def preorderSiblings {σ : Type} (visit : Visitor σ) (state : σ) (parent : Place)
    (before : List Tree) : List Tree → σ
  | [] => state
  | t :: rest =>
    let state := preorderAt visit state (.child parent before) t
    preorderSiblings visit state parent (t :: before) rest

end

/-- Everything that `emit` gives at the nodes of a tree, parents before children. -/
def emitted {α : Type} (emit : Place → List α) (root : Tree) : List α :=
  walk (fun found p => (found ++ emit p, true)) [.root root] []

end CodeGraph
