import CodeGraph.Proofs.Emission
import Mathlib.Data.List.Nodup

/-!
# Places in preorder

`Place.preorder` lists a place and those below it by recursion on the tree: parents before children,
siblings in order.  It is the order in which a walk meets the places (`places_eq`), it holds exactly
what can be reached from the place (`mem_preorder_iff`), and no place twice (`nodup_preorder`).  A
property of all nodes of a tree (`Tree.Everywhere`) holds at each of these places.
-/

namespace CodeGraph

namespace Place

/-- A place and the places below it, parents before children and siblings in order. -/
def preorder (p : Place) : List Place :=
  p :: p.children.attach.flatMap fun c => preorder c.1
termination_by p.tree.size
decreasing_by exact Tree.size_lt_of_mem_children (tree_mem_of_mem_children c.2)

theorem preorder_eq (p : Place) : p.preorder = p :: p.children.flatMap preorder := by
  rw [preorder]
  conv_rhs => rw [← List.attach_map_subtype_val p.children, List.flatMap_map]

theorem listed_eq (pending : List Place) : listed pending = pending.flatMap preorder := by
  induction pending using Place.listed.induct with
  | case1 => rw [listed, List.flatMap_nil]
  | case2 p pending ih =>
    rw [listed, ih, List.flatMap_append, List.flatMap_cons, preorder_eq, List.cons_append]

/-! ## What is reached -/

@[simp]
theorem mem_preorder_self (p : Place) : p ∈ p.preorder := by
  rw [preorder_eq]
  exact List.mem_cons_self

theorem mem_preorder_iff {p q : Place} :
    q ∈ p.preorder ↔ Relation.ReflTransGen IsChild p q := by
  constructor
  · intro h
    induction p using preorder.induct with
    | case1 p ih =>
      rw [preorder_eq] at h
      rcases List.mem_cons.1 h with rfl | h
      · exact .refl
      · obtain ⟨c, hc, hq⟩ := List.mem_flatMap.1 h
        exact .head hc (ih ⟨c, hc⟩ hq)
  · intro h
    induction h using Relation.ReflTransGen.head_induction_on with
    | refl => exact mem_preorder_self q
    | head hc _ ih =>
      rw [preorder_eq]
      exact List.mem_cons_of_mem _ (List.mem_flatMap.2 ⟨_, hc, ih⟩)

theorem mem_preorder_of_mem_children {p q c : Place} (h : q ∈ p.preorder) (hc : c ∈ q.children) :
    c ∈ p.preorder :=
  mem_preorder_iff.2 ((mem_preorder_iff.1 h).tail hc)

/-! ## No place twice -/

/-- The number of nodes above the place. -/
def depth : Place → Nat
  | root _ => 0
  | child parent _ _ => parent.depth + 1

theorem depth_of_parent? {p q : Place} (h : p.parent? = some q) : p.depth = q.depth + 1 := by
  cases p with
  | root => cases h
  | child parent before tree =>
    cases h
    rfl

theorem depth_le_of_reachable {p q : Place} (h : Relation.ReflTransGen IsChild p q) :
    p.depth ≤ q.depth := by
  induction h with
  | refl => exact Nat.le_refl _
  | tail _ hc ih =>
    rw [depth_of_parent? (parent?_of_mem_children hc)]
    omega

theorem eq_of_mem_children {p q c : Place} (hp : c ∈ p.children) (hq : c ∈ q.children) : p = q :=
  Option.some.inj ((parent?_of_mem_children hp).symm.trans (parent?_of_mem_children hq))

/-- Of two places that reach a third, one reaches the other. -/
theorem reachable_or_reachable {a b x : Place} (ha : Relation.ReflTransGen IsChild a x)
    (hb : Relation.ReflTransGen IsChild b x) :
    Relation.ReflTransGen IsChild a b ∨ Relation.ReflTransGen IsChild b a := by
  have unique : Relator.RightUnique (Function.swap IsChild) := fun _ _ _ hp hq =>
    eq_of_mem_children hp hq
  have total := Relation.ReflTransGen.total_of_right_unique unique ha.swap hb.swap
  exact total.symm.imp Relation.reflTransGen_swap.1 Relation.reflTransGen_swap.1

/-- A child reaches none of its siblings. -/
theorem eq_of_reachable_of_mem_children {p a b : Place} (ha : a ∈ p.children) (hb : b ∈ p.children)
    (h : Relation.ReflTransGen IsChild a b) : a = b := by
  rcases Relation.ReflTransGen.cases_tail h with rfl | ⟨q, hq, hqb⟩
  · rfl
  · -- the parent of `b` would lie at or below `a`, which is its child
    have deeper := depth_le_of_reachable hq
    rw [eq_of_mem_children hqb hb, depth_of_parent? (parent?_of_mem_children ha)] at deeper
    omega

theorem length_le_of_mem_siblings {parent p : Place} {before ts : List Tree}
    (h : p ∈ siblings parent before ts) : before.length ≤ p.before.length := by
  induction ts generalizing before with
  | nil => cases h
  | cons t ts ih =>
    rcases List.mem_cons.1 h with rfl | h
    · exact Nat.le_refl _
    · exact Nat.le_trans (Nat.le_succ _) (ih h)

theorem nodup_siblings (parent : Place) (before ts : List Tree) :
    (siblings parent before ts).Nodup := by
  induction ts generalizing before with
  | nil => exact List.nodup_nil
  | cons t ts ih =>
    rw [siblings, List.nodup_cons]
    refine ⟨fun h => ?_, ih _⟩
    exact Nat.not_succ_le_self _ (length_le_of_mem_siblings h)

theorem nodup_children (p : Place) : p.children.Nodup := nodup_siblings p [] p.tree.children

theorem nodup_preorder (p : Place) : p.preorder.Nodup := by
  induction p using preorder.induct with
  | case1 p ih =>
    rw [preorder_eq, List.nodup_cons, List.nodup_flatMap]
    refine ⟨fun h => ?_, fun c hc => ih ⟨c, hc⟩, ?_⟩
    · obtain ⟨c, hc, hp⟩ := List.mem_flatMap.1 h
      have deeper := depth_le_of_reachable (mem_preorder_iff.1 hp)
      rw [depth_of_parent? (parent?_of_mem_children hc)] at deeper
      omega
    · refine (nodup_children p).imp_of_mem fun {a b} ha hb differ x hxa hxb => differ ?_
      rcases reachable_or_reachable (mem_preorder_iff.1 hxa) (mem_preorder_iff.1 hxb) with h | h
      · exact eq_of_reachable_of_mem_children ha hb h
      · exact (eq_of_reachable_of_mem_children hb ha h).symm

/-! ## Children by their nodes -/

@[simp]
theorem map_tree_fieldChild? (p : Place) (field : String) :
    (p.fieldChild? field).map tree = p.tree.fieldChild? field := by
  unfold fieldChild? Tree.fieldChild?
  conv_rhs => rw [← map_tree_children p, List.find?_map]
  rfl

/-- If only one child of the node has a property, there is only one such place. -/
theorem eq_of_filter_children {p a b : Place} {has : Tree → Bool} {t : Tree}
    (one : p.tree.children.filter has = [t]) (ha : a ∈ p.children) (hb : b ∈ p.children)
    (hasA : has a.tree = true) (hasB : has b.tree = true) : a = b := by
  have nodes : (p.children.filter fun c => has c.tree).map tree = [t] := by
    rw [← one, ← map_tree_children p, List.filter_map]
    rfl
  obtain ⟨c, hc, -⟩ := List.map_eq_singleton_iff.1 nodes
  have only {x : Place} (hx : x ∈ p.children) (hasX : has x.tree = true) : x = c := by
    have mem : x ∈ p.children.filter fun c => has c.tree := List.mem_filter.2 ⟨hx, hasX⟩
    rwa [hc, List.mem_singleton] at mem
  rw [only ha hasA, only hb hasB]

end Place

theorem Tree.places_eq (root : Tree) : root.places = (Place.root root).preorder := by
  rw [places, Place.listed_eq, List.flatMap_singleton]

/-! ## Properties of all nodes -/

/-- The property holds of every node of the tree. -/
inductive Tree.Everywhere (P : Tree → Prop) : Tree → Prop where
  | node {label : Label} {children : List Tree} (here : P (.node label children))
      (below : ∀ c ∈ children, c.Everywhere P) : Tree.Everywhere P (.node label children)

@[simp]
theorem Tree.everywhere_node_iff {P : Tree → Prop} {label : Label} {children : List Tree} :
    (Tree.node label children).Everywhere P ↔
      P (.node label children) ∧ ∀ c ∈ children, c.Everywhere P :=
  ⟨fun h => by cases h with | node here below => exact ⟨here, below⟩, fun h => .node h.1 h.2⟩

namespace Tree.Everywhere

variable {P : Tree → Prop}

theorem here {t : Tree} (h : t.Everywhere P) : P t := by
  cases h with
  | node here _ => exact here

theorem child {t c : Tree} (h : t.Everywhere P) (hc : c ∈ t.children) : c.Everywhere P := by
  cases h with
  | node _ below => exact below c hc

theorem of_mem_preorder {p q : Place} (h : p.tree.Everywhere P) (hq : q ∈ p.preorder) :
    P q.tree := by
  have reached := Place.mem_preorder_iff.1 hq
  have below : q.tree.Everywhere P := by
    induction reached with
    | refl => exact h
    | tail _ hc ih =>
      have nearer := ih (Place.mem_preorder_iff.2 ‹_›)
      exact nearer.child (Place.tree_mem_of_mem_children hc)
  exact below.here

end Tree.Everywhere

end CodeGraph
