import CodeGraph.Proofs.Preorder

/-!
# The calls of a walk

A walk through a list of pending places visits what the recursion on the tree visits, in the same
order and with the same states (`walk_eq_preorderAt`).  What a visitor is shown can be noted down
besides its own state (`noting`), so this holds of its calls as well.  A place is shown exactly if
it is the root or its parent was shown and answered that the walk goes on, that is, if no place
above it was answered otherwise (`CallsFrom.lists`); and the calls stand in the order of the tree,
so no place is shown twice.
-/

namespace CodeGraph

variable {σ : Type}

/-! ## The walk and the recursion -/

mutual

theorem walk_cons_eq (visit : Visitor σ) (around : Tree → Place) (same : ∀ t, (around t).tree = t)
    (pending : List Place) (state : σ) (t : Tree) :
    walk visit (around t :: pending) state =
      walk visit pending (preorderAt visit state around t) := by
  match t with
  | .node label children =>
    rw [walk, preorderAt]
    split
    · next next answered =>
      rw [Place.children, same]
      exact walk_siblings_eq visit _ [] pending next children
    · rfl

theorem walk_siblings_eq (visit : Visitor σ) (parent : Place) (before : List Tree)
    (pending : List Place) (state : σ) (ts : List Tree) :
    walk visit (Place.siblings parent before ts ++ pending) state =
      walk visit pending (preorderSiblings visit state parent before ts) := by
  match ts with
  | [] => rw [Place.siblings, preorderSiblings, List.nil_append]
  | t :: rest =>
    rw [Place.siblings, preorderSiblings, List.cons_append,
      walk_cons_eq visit (.child parent before) (fun _ => rfl),
      walk_siblings_eq visit parent (t :: before)]

end

/-- The walk through a tree is the recursion on the tree. -/
theorem walk_eq_preorderAt (visit : Visitor σ) (state : σ) (root : Tree) :
    walk visit [.root root] state = preorderAt visit state .root root := by
  rw [walk_cons_eq visit .root (fun _ => rfl), walk]

/-! ## Noting calls -/

/-- A call of a visitor: the place that it is shown, and whether it lets the walk go on below. -/
abbrev Call := Place × Bool

/-- The visitor, with its calls noted down besides its own state. -/
def noting (visit : Visitor σ) : Visitor (σ × List Call) := fun (state, calls) p =>
  let (next, goesOn) := visit state p
  ((next, calls ++ [(p, goesOn)]), goesOn)

/-- A visitor answers the calls one after the other, each in the state that the one before left. -/
inductive Answers (visit : Visitor σ) : σ → List Call → σ → Prop where
  | done (state : σ) : Answers visit state [] state
  | call {state next last : σ} {p : Place} {goesOn : Bool} {calls : List Call}
      (answered : visit state p = (next, goesOn)) (further : Answers visit next calls last) :
      Answers visit state ((p, goesOn) :: calls) last

/-- The calls of a walk that starts with some pending places. -/
structure CallsFrom (pending : List Place) (calls : List Call) : Prop where
  /-- The places are shown in the order of their trees. -/
  inOrder : (calls.map Prod.fst).Sublist (Place.listed pending)
  /-- A place is shown if it is pending from the start, or if the walk goes on below its parent. -/
  shown_iff : ∀ p, p ∈ calls.map Prod.fst ↔
    p ∈ pending ∨ ∃ q, (q, true) ∈ calls ∧ p ∈ q.children

theorem listed_cons (p : Place) (pending : List Place) :
    Place.listed (p :: pending) =
      p :: (p.children.flatMap Place.preorder ++ Place.listed pending) := by
  rw [Place.listed, Place.listed_eq, Place.listed_eq, List.flatMap_append]

theorem callsFrom_nil : CallsFrom [] [] := ⟨by simp, by simp⟩

theorem CallsFrom.goOn {p : Place} {pending : List Place} {calls : List Call}
    (h : CallsFrom (p.children ++ pending) calls) :
    CallsFrom (p :: pending) ((p, true) :: calls) where
  inOrder := by
    rw [Place.listed]
    exact h.inOrder.cons_cons p
  shown_iff q := by
    rw [List.map_cons, List.mem_cons, h.shown_iff q]
    grind

theorem CallsFrom.passOver {p : Place} {pending : List Place} {calls : List Call}
    (h : CallsFrom pending calls) : CallsFrom (p :: pending) ((p, false) :: calls) where
  inOrder := by
    rw [listed_cons]
    exact (h.inOrder.trans (List.sublist_append_right _ _)).cons_cons p
  shown_iff q := by
    rw [List.map_cons, List.mem_cons, h.shown_iff q, List.mem_cons, or_assoc]
    simp

theorem noting_eq {visit : Visitor σ} {state next : σ} {p : Place} {goesOn : Bool}
    (answered : visit state p = (next, goesOn)) (calls : List Call) :
    noting visit (state, calls) p = ((next, calls ++ [(p, goesOn)]), goesOn) := by
  simp only [noting, answered]

/-- A walk keeps the state that it would keep without notes, and its calls are noted in order. -/
theorem exists_callsFrom (visit : Visitor σ) (pending : List Place) (state : σ)
    (calls : List Call) :
    ∃ later,
      walk (noting visit) pending (state, calls) = (walk visit pending state, calls ++ later) ∧
      Answers visit state later (walk visit pending state) ∧ CallsFrom pending later := by
  fun_induction walk visit pending state generalizing calls with
  | case1 state => exact ⟨[], by rw [walk, List.append_nil], .done state, callsFrom_nil⟩
  | case2 p pending state next answered ih =>
    obtain ⟨later, run, answers, follow⟩ := ih (calls ++ [(p, true)])
    refine ⟨(p, true) :: later, ?_, .call answered answers, follow.goOn⟩
    rw [walk, noting_eq answered]
    simpa using run
  | case3 p pending state next answered ih =>
    obtain ⟨later, run, answers, follow⟩ := ih (calls ++ [(p, false)])
    refine ⟨(p, false) :: later, ?_, .call answered answers, follow.passOver⟩
    rw [walk, noting_eq answered]
    simpa using run

/-! ## The calls of a tree -/

/-- Some places of a tree: those that have a property, each once and in the order of the tree. -/
structure Lists (root : Tree) (P : Place → Prop) (places : List Place) : Prop where
  inOrder : places.Sublist (Place.root root).preorder
  once : places.Nodup
  mem_iff : ∀ p, p ∈ places ↔ p ∈ (Place.root root).preorder ∧ P p

/-- A place above another one that was shown was shown, and the walk went on below it. -/
theorem CallsFrom.above_shown {root : Tree} {calls : List Call} (h : CallsFrom [.root root] calls)
    {p q : Place} (below : q.Below p) (shown : p ∈ calls.map Prod.fst) : (q, true) ∈ calls := by
  have parent {q c : Place} (child : c ∈ q.children) (shown : c ∈ calls.map Prod.fst) :
      (q, true) ∈ calls := by
    rcases (h.shown_iff c).1 shown with root | ⟨r, goesOn, other⟩
    · obtain rfl := List.mem_singleton.1 root
      cases Place.parent?_of_mem_children child
    · rwa [Place.eq_of_mem_children child other]
  induction below with
  | single child => exact parent child shown
  | tail _ child ih => exact ih (List.mem_map_of_mem (parent child shown))

/-- The walk through a tree shows exactly the places above which no place was answered `false`. -/
theorem CallsFrom.lists {root : Tree} {calls : List Call} (h : CallsFrom [.root root] calls) :
    Lists root (fun p => ∀ q, q.Below p → (q, false) ∉ calls) (calls.map Prod.fst) := by
  have inOrder : (calls.map Prod.fst).Sublist (Place.root root).preorder := by
    have := h.inOrder
    rwa [Place.listed_eq, List.flatMap_singleton] at this
  have once : (calls.map Prod.fst).Nodup := inOrder.nodup (Place.nodup_preorder _)
  refine ⟨inOrder, once, fun p =>
    ⟨fun shown => ⟨inOrder.subset shown, fun q below refused => ?_⟩, ?_⟩⟩
  · -- a place is not answered twice
    have goesOn := h.above_shown below shown
    cases List.inj_on_of_nodup_map once goesOn refused rfl
  · rintro ⟨mem, unpruned⟩
    have reached := Place.mem_preorder_iff.1 mem
    clear mem
    induction reached with
    | refl => exact (h.shown_iff _).2 (Or.inl List.mem_cons_self)
    | @tail q c _ child ih =>
      have shown := ih fun r below => unpruned r (below.tail child)
      obtain ⟨⟨r, goesOn⟩, call, rfl⟩ := List.mem_map.1 shown
      cases goesOn with
      | true => exact (h.shown_iff c).2 (Or.inr ⟨r, call, child⟩)
      | false => exact absurd call (unpruned r (.child child))

/-- The calls of a walk through a tree, by the walk and by the recursion on the tree. -/
theorem exists_calls (visit : Visitor σ) (state : σ) (root : Tree) :
    ∃ calls, walk (noting visit) [.root root] (state, []) = (walk visit [.root root] state, calls) ∧
      preorderAt (noting visit) (state, []) .root root =
        (preorderAt visit state .root root, calls) ∧
      Answers visit state calls (walk visit [.root root] state) ∧
      Lists root (fun p => ∀ q, q.Below p → (q, false) ∉ calls) (calls.map Prod.fst) := by
  obtain ⟨calls, run, answers, follow⟩ := exists_callsFrom visit [.root root] state []
  rw [List.nil_append] at run
  refine ⟨calls, run, ?_, answers, follow.lists⟩
  rw [← walk_eq_preorderAt, ← walk_eq_preorderAt, run]

end CodeGraph
