import CodeGraph.Proofs.Ownership.Family
import CodeGraph.Proofs.Preorder
import Mathlib.Data.List.Forall2

/-!
# Declarations and their nodes

A declaration that is read off a node has the text of the node's name and the span of the node
(`ReadsOff`); a member also has the id of the type that it is declared in (`ReadsMember`).  Lists of
declarations are compared with lists of places item by item (`List.Forall₂`), along the places that
they were found at (`forall₂_flatMap`, `forall₂_filter_flatMap`).
-/

namespace CodeGraph

/-! ## Item by item -/

section Lists

variable {α β γ : Type} {R : β → γ → Prop}

theorem forall₂_flatMap {items : List α} {f : α → List β} {g : α → List γ}
    (h : ∀ a ∈ items, List.Forall₂ R (f a) (g a)) :
    List.Forall₂ R (items.flatMap f) (items.flatMap g) := by
  have same : List.Forall₂ (fun a b => a = b ∧ a ∈ items) items items :=
    List.forall₂_same.2 fun a ha => ⟨rfl, ha⟩
  refine List.rel_flatMap same ?_
  rintro a b ⟨rfl, ha⟩
  exact h a ha

/-- Some items give one thing each, and the others nothing. -/
theorem forall₂_filter_flatMap {items : List β} {p : β → Bool} {g : β → List γ}
    (one : ∀ b ∈ items, p b = true → ∃ c, g b = [c] ∧ R b c)
    (none : ∀ b ∈ items, p b = false → g b = []) :
    List.Forall₂ R (items.filter p) (items.flatMap g) := by
  have kept : items.filter p = items.flatMap fun b => if p b then [b] else [] := by
    induction items with
    | nil => rfl
    | cons b items ih =>
      rw [List.filter_cons, List.flatMap_cons,
        ih (fun b hb => one b (List.mem_cons_of_mem _ hb))
          fun b hb => none b (List.mem_cons_of_mem _ hb)]
      split_ifs <;> rfl
  rw [kept]
  refine forall₂_flatMap fun b hb => ?_
  cases hp : p b with
  | true =>
    obtain ⟨c, given, related⟩ := one b hb hp
    rw [given]
    exact .cons related .nil
  | false =>
    rw [none b hb hp]
    exact .nil

end Lists

/-! ## Names and spans -/

/-- The node at the place gives the declaration its name, its span, and its file. -/
structure ReadsOff (file : ParsedFile) (p : Place) (d : Declaration) : Prop
    extends StandsAt file p d where
  name : (p.tree.fieldChild? "name").map file.textOf = some d.name
  language : d.language = file.language

theorem readsOff_declaration (file : ParsedFile) (kind : DeclarationKind) {name : Tree} {p : Place}
    (h : p.tree.fieldChild? "name" = some name) (owner : Option String) (traits : Traits) :
    ReadsOff file p (file.declaration kind name p owner traits) where
  toStandsAt := standsAt_declaration file kind name p owner traits
  name := by rw [h]; rfl
  language := rfl

/-- The node at the place gives a method of the type. -/
structure ReadsMember (file : ParsedFile) (t : Declaration) (p : Place) (d : Declaration) : Prop
    extends ReadsOff file p d where
  kind : d.kind = .method
  owner : d.owner = some t.id

end CodeGraph
