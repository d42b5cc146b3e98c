import CodeGraph.Tree

/-!
# Outlines

An outline lists the nodes of a tree parents first, each with its depth.  `Tree.outline` writes the
outline of a tree and `Tree.ofOutline?` reads one: a node's parent is the nearest earlier node that
lies one level higher.  An outline of a tree starts with its only node of depth zero, and no node
lies more than one level below the node before it.
-/

namespace CodeGraph.Tree

mutual

/-- The nodes of a tree with their depths, the root at `depth`. -/
def outlineAt (depth : Nat) : Tree → List (Nat × Label)
  | node label children => (depth, label) :: outlinesAt (depth + 1) children

/-- The nodes of some trees whose roots are at `depth`. -/
def outlinesAt (depth : Nat) : List Tree → List (Nat × Label)
  | [] => []
  | t :: rest => outlineAt depth t ++ outlinesAt depth rest

end

/-- The nodes of a tree with their depths. -/
def outline (t : Tree) : List (Nat × Label) := outlineAt 0 t

/-- A node whose children are still being collected (backwards). -/
structure OpenNode where
  label : Label
  children : List Tree

/-- The finished node. -/
def OpenNode.close (n : OpenNode) : Tree := .node n.label n.children.reverse

/-- Closes the innermost open nodes until `depth` of them are left. -/
def closeTo (depth : Nat) : List OpenNode → List OpenNode
  | inner :: outer :: rest =>
    if depth ≤ (outer :: rest).length then
      closeTo depth (⟨outer.label, inner.close :: outer.children⟩ :: rest)
    else inner :: outer :: rest
  | nodes => nodes
termination_by nodes => nodes.length

/-- Adds the nodes of an outline to the open nodes, innermost first. -/
def collect : List OpenNode → List (Nat × Label) → Option (List OpenNode)
  | opened, [] => some opened
  | opened, (depth, label) :: rest =>
    let opened := closeTo depth opened
    if depth = opened.length ∧ 0 < depth then collect (⟨label, []⟩ :: opened) rest else none

/-- The tree of an outline. -/
def ofOutline? : List (Nat × Label) → Option Tree
  | (0, label) :: rest =>
    match collect [⟨label, []⟩] rest with
    | some opened =>
      match closeTo 1 opened with
      | [root] => some root.close
      | _ => none
    | none => none
  | _ => none

end CodeGraph.Tree
