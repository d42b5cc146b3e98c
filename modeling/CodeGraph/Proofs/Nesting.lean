import CodeGraph.ParsedFile
import CodeGraph.Proofs.Emission

/-!
# Nested spans

In a `Nested` tree every child lies inside its parent.  The lines of a node below another one then
lie within the lines of that one (`linesWithin_of_below`).
-/

namespace CodeGraph

/-- The bytes of every child lie inside those of its parent. -/
inductive Tree.Nested : Tree → Prop where
  | node {label : Label} {children : List Tree}
      (inside : ∀ c ∈ children, label.start ≤ c.label.start ∧ c.label.stop ≤ label.stop)
      (nested : ∀ c ∈ children, c.Nested) : Tree.Nested (.node label children)

@[simp]
theorem Tree.nested_node_iff {label : Label} {children : List Tree} :
    (Tree.node label children).Nested ↔
      (∀ c ∈ children, label.start ≤ c.label.start ∧ c.label.stop ≤ label.stop) ∧
        ∀ c ∈ children, c.Nested :=
  ⟨fun h => by cases h with | node inside nested => exact ⟨inside, nested⟩,
    fun h => .node h.1 h.2⟩

/-- The lines of the span are among those of the other. -/
def Span.LinesWithin (inner outer : Span) : Prop :=
  outer.start.line ≤ inner.start.line ∧ inner.stop.line ≤ outer.stop.line

theorem Span.LinesWithin.trans {a b c : Span} (hab : a.LinesWithin b) (hbc : b.LinesWithin c) :
    a.LinesWithin c :=
  ⟨Int.le_trans hbc.1 hab.1, Int.le_trans hab.2 hbc.2⟩

theorem line_positionOf_mono (source : List UInt8) {a b : Nat} (h : a ≤ b) :
    (positionOf source a).line ≤ (positionOf source b).line := by
  have counted : (source.take a).count 10 ≤ (source.take b).count 10 :=
    (List.take_sublist_take_left h).count_le 10
  simp only [positionOf]
  omega

namespace Tree.Nested

theorem inside {t c : Tree} (h : t.Nested) (hc : c ∈ t.children) :
    t.label.start ≤ c.label.start ∧ c.label.stop ≤ t.label.stop := by
  cases h with
  | node inside _ => exact inside c hc

theorem child {t c : Tree} (h : t.Nested) (hc : c ∈ t.children) : c.Nested := by
  cases h with
  | node _ nested => exact nested c hc

theorem linesWithin (file : ParsedFile) {t c : Tree} (h : t.Nested) (hc : c ∈ t.children) :
    (file.spanOf c).LinesWithin (file.spanOf t) :=
  ⟨line_positionOf_mono _ (h.inside hc).1, line_positionOf_mono _ (h.inside hc).2⟩

end Tree.Nested

theorem nested_of_reachable {p q : Place} (h : Relation.ReflTransGen Place.IsChild p q)
    (hp : p.tree.Nested) : q.tree.Nested := by
  induction h with
  | refl => exact hp
  | tail _ hc ih => exact ih.child (Place.tree_mem_of_mem_children hc)

theorem linesWithin_of_below (file : ParsedFile) {p q : Place} (h : p.Below q)
    (hp : p.tree.Nested) : (file.spanOf q.tree).LinesWithin (file.spanOf p.tree) := by
  induction h with
  | single hc => exact hp.linesWithin file (Place.tree_mem_of_mem_children hc)
  | tail hq hc ih =>
    have nested := nested_of_reachable hq.to_reflTransGen hp
    exact (nested.linesWithin file (Place.tree_mem_of_mem_children hc)).trans ih

end CodeGraph
