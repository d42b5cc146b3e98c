import CodeGraph.Tree.Walk
import Mathlib.Logic.Relation

/-!
# What a walk emits

A walk that goes below every node visits the places of a tree parents first (`Place.listed`), and
what it emits is what the places emit, in that order (`emitted_eq_flatMap`).  Every place visited is
the root or lies below it (`reachable_of_mem_places`).
-/

namespace CodeGraph

namespace Place

/-- The places at and below some pending ones, in the order of the walk. -/
def listed : List Place → List Place
  | [] => []
  | p :: pending => p :: listed (p.children ++ pending)
termination_by pending => pendingSize pending
decreasing_by
  have := pendingSize_children_append p pending
  omega

/-- One place is that of a child of the node at the other. -/
def IsChild (p c : Place) : Prop := c ∈ p.children

/-- One place lies somewhere below the other. -/
def Below (p q : Place) : Prop := Relation.TransGen IsChild p q

theorem Below.child {p c : Place} (h : c ∈ p.children) : p.Below c := Relation.TransGen.single h

theorem Below.step {p q c : Place} (h : p.Below q) (hc : c ∈ q.children) : p.Below c :=
  Relation.TransGen.tail h hc

theorem mem_children_of_fieldChild? {p c : Place} {field : String}
    (h : p.fieldChild? field = some c) : c ∈ p.children := List.mem_of_find?_eq_some h

theorem mem_children_of_kindChild? {p c : Place} {kind : String}
    (h : p.kindChild? kind = some c) : c ∈ p.children := List.mem_of_find?_eq_some h

theorem tree_mem_of_mem_children {p c : Place} (h : c ∈ p.children) : c.tree ∈ p.tree.children := by
  rw [← map_tree_children]
  exact List.mem_map_of_mem h

end Place

/-- All places of a tree, parents before children. -/
def Tree.places (root : Tree) : List Place := Place.listed [.root root]

theorem walk_emit {α : Type} (emit : Place → List α) (pending : List Place) (found : List α) :
    walk (fun found p => (found ++ emit p, true)) pending found =
      found ++ (Place.listed pending).flatMap emit := by
  induction pending using Place.listed.induct generalizing found with
  | case1 => simp [walk, Place.listed]
  | case2 p pending ih =>
    rw [walk, Place.listed]
    simp only [ih, List.flatMap_cons, List.append_assoc]

theorem emitted_eq_flatMap {α : Type} (emit : Place → List α) (root : Tree) :
    emitted emit root = root.places.flatMap emit :=
  walk_emit emit [.root root] []

theorem reachable_of_mem_listed {pending : List Place} {p : Place} (h : p ∈ Place.listed pending) :
    ∃ q ∈ pending, Relation.ReflTransGen Place.IsChild q p := by
  induction pending using Place.listed.induct with
  | case1 => simp [Place.listed] at h
  | case2 a pending ih =>
    rw [Place.listed] at h
    rcases List.mem_cons.1 h with rfl | h
    · exact ⟨p, List.mem_cons_self, .refl⟩
    · obtain ⟨q, hq, hqp⟩ := ih h
      rcases List.mem_append.1 hq with hq | hq
      · exact ⟨a, List.mem_cons_self, .head hq hqp⟩
      · exact ⟨q, List.mem_cons_of_mem _ hq, hqp⟩

theorem reachable_of_mem_places {root : Tree} {p : Place} (h : p ∈ root.places) :
    Relation.ReflTransGen Place.IsChild (.root root) p := by
  obtain ⟨q, hq, hqp⟩ := reachable_of_mem_listed h
  rwa [List.mem_singleton.1 hq] at hqp

end CodeGraph
