import CodeGraph.Declaration.Java
import CodeGraph.Proofs.Calls
import CodeGraph.Proofs.Nesting

/-!
# The types of a clause

The types that a clause names are those of its outermost names: the nodes that name a type, and that
lie neither below another such node nor in type arguments.  They are listed in the order of the
tree, which is that of the text if the nodes of the tree follow one another there
(`walk_and_typeNames`).
-/

namespace CodeGraph

/-! ## Order in the text -/

/-- Every node lies inside its parent, and siblings stand one behind the other. -/
structure Tree.InTextOrder (root : Tree) : Prop where
  nested : root.Nested
  siblings : root.Everywhere fun t => t.children.Pairwise fun a b => a.label.stop ≤ b.label.start

theorem Tree.InTextOrder.child {t c : Tree} (h : t.InTextOrder) (hc : c ∈ t.children) :
    c.InTextOrder :=
  ⟨h.nested.child hc, h.siblings.child hc⟩

namespace Place

theorem inside_of_mem_preorder {p q : Place} (nested : p.tree.Nested) (h : q ∈ p.preorder) :
    p.tree.label.start ≤ q.tree.label.start ∧ q.tree.label.stop ≤ p.tree.label.stop := by
  have reached := mem_preorder_iff.1 h
  clear h
  induction reached with
  | refl => exact ⟨Nat.le_refl _, Nat.le_refl _⟩
  | tail before child ih =>
    have inside := (nested_of_reachable before nested).inside (tree_mem_of_mem_children child)
    omega

/-- Of two nodes in preorder the first lies above the second or ends before it. -/
theorem pairwise_preorder (p : Place) (ordered : p.tree.InTextOrder) :
    p.preorder.Pairwise fun a b => a.Below b ∨ a.tree.label.stop ≤ b.tree.label.start := by
  induction p using preorder.induct with
  | case1 p ih =>
    rw [preorder_eq, List.pairwise_cons, List.pairwise_flatMap]
    refine ⟨fun q h => ?_, fun c hc => ih ⟨c, hc⟩ (ordered.child (tree_mem_of_mem_children hc)), ?_⟩
    · obtain ⟨c, hc, hq⟩ := List.mem_flatMap.1 h
      exact Or.inl (.head' hc (mem_preorder_iff.1 hq))
    · have siblings : p.children.Pairwise fun a b => a.tree.label.stop ≤ b.tree.label.start := by
        have := ordered.siblings.here
        rwa [← map_tree_children p, List.pairwise_map] at this
      refine siblings.imp_of_mem fun {c d} hc hd behind a ha b hb => Or.inr ?_
      have first := inside_of_mem_preorder (ordered.nested.child (tree_mem_of_mem_children hc)) ha
      have second := inside_of_mem_preorder (ordered.nested.child (tree_mem_of_mem_children hd)) hb
      omega

end Place

namespace Java

variable {file : ParsedFile}

/-! ## Outermost names -/

/-- The node names a type. -/
abbrev NamesType (p : Place) : Prop := p.kind ∈ typeNameKinds

/-- Nothing below the node is a name of its own: it names a type, or holds type arguments. -/
abbrev HidesNames (p : Place) : Prop := p.kind ∈ typeNameKinds ∨ p.kind = "type_arguments"

/-- A node that names a type, below no other such node and in no type arguments. -/
structure IsOutermostName (p : Place) : Prop where
  names : NamesType p
  outermost : ∀ q : Place, q.Below p → ¬ HidesNames q

theorem typeNameVisitor_eq (file : ParsedFile) (found : List String) (p : Place) :
    typeNameVisitor file found p =
      (found ++ if NamesType p then [file.textOf p.tree] else [], decide (¬ HidesNames p)) := by
  have apart : "type_arguments" ∉ typeNameKinds := by decide
  unfold typeNameVisitor
  by_cases arguments : p.kind = "type_arguments"
  · simp [NamesType, HidesNames, arguments, apart]
  · by_cases named : p.kind ∈ typeNameKinds <;> simp [NamesType, HidesNames, arguments, named]

/-- The names that are found are those of the nodes that are shown, and the walk goes on below the
nodes that hide no names. -/
theorem of_answers {found last : List String} {calls : List Call}
    (h : Answers (typeNameVisitor file) found calls last) :
    last = found ++ ((calls.map Prod.fst).filter NamesType).map (fun p => file.textOf p.tree) ∧
      ∀ call ∈ calls, call.2 = decide (¬ HidesNames call.1) := by
  induction h with
  | done state => simp
  | @call state next last p goesOn calls answered further ih =>
    rw [typeNameVisitor_eq] at answered
    cases answered
    obtain ⟨rfl, answers⟩ := ih
    refine ⟨?_, List.forall_mem_cons.2 ⟨rfl, answers⟩⟩
    by_cases named : NamesType p <;> simp [named]

/-- The types that a clause names are those of its outermost names, in the order of the tree. -/
theorem exists_typeNames (file : ParsedFile) (clause : Tree) :
    ∃ places, typeNames file (some clause) = places.map (fun p => file.textOf p.tree) ∧
      Lists clause IsOutermostName places := by
  obtain ⟨calls, -, answers, follow⟩ := exists_callsFrom (typeNameVisitor file) [.root clause] [] []
  obtain ⟨names, goesOn⟩ := of_answers answers
  have shown := follow.lists
  refine ⟨(calls.map Prod.fst).filter NamesType, names,
    List.filter_sublist.trans shown.inOrder, shown.once.filter _, fun p => ?_⟩
  rw [List.mem_filter, decide_eq_true_iff]
  constructor
  · rintro ⟨mem, named⟩
    refine ⟨shown.inOrder.subset mem, named, fun q below => ?_⟩
    have through := goesOn _ (follow.above_shown below mem)
    exact of_decide_eq_true through.symm
  · rintro ⟨mem, named, outermost⟩
    refine ⟨(shown.mem_iff p).2 ⟨mem, fun q below refused => ?_⟩, named⟩
    have stopped := goesOn _ refused
    exact of_decide_eq_false stopped.symm (outermost q below)

theorem pairwise_outermost {clause : Tree} (ordered : clause.InTextOrder) {places : List Place}
    (h : Lists clause IsOutermostName places) :
    places.Pairwise fun a b => a.tree.label.stop ≤ b.tree.label.start := by
  have apart := (Place.pairwise_preorder (.root clause) ordered).sublist h.inOrder
  refine apart.imp_of_mem fun {a b} ha hb either => either.resolve_left fun below => ?_
  -- a name above another one hides it
  have names := ((h.mem_iff a).1 ha).2.names
  exact ((h.mem_iff b).1 hb).2.outermost a below (Or.inl names)

/-- A walk shows its visitor, whatever state that keeps, the places above which none was answered
`false`, in preorder and just as the recursion on the tree does.  So the types that a clause names
are those of its outermost names, in preorder, which is the order of the text if the nodes are. -/
theorem walk_and_typeNames :
    (∀ (σ : Type) (visit : Visitor σ) (state : σ) (root : Tree),
      ∃ calls,
        walk (noting visit) [.root root] (state, []) = (walk visit [.root root] state, calls) ∧
        preorderAt (noting visit) (state, []) .root root =
          (preorderAt visit state .root root, calls) ∧
        Answers visit state calls (walk visit [.root root] state) ∧
        Lists root (fun p => ∀ q, q.Below p → (q, false) ∉ calls) (calls.map Prod.fst)) ∧
    ∀ (file : ParsedFile) (clause : Tree),
      ∃ places, typeNames file (some clause) = places.map (fun p => file.textOf p.tree) ∧
        Lists clause IsOutermostName places ∧
        (clause.InTextOrder →
          places.Pairwise fun a b => a.tree.label.stop ≤ b.tree.label.start) := by
  refine ⟨fun σ => exists_calls, fun file clause => ?_⟩
  obtain ⟨places, names, lists⟩ := exists_typeNames file clause
  exact ⟨places, names, lists, fun ordered => pairwise_outermost ordered lists⟩

/-- The clause `implements List<Foo>, a.B`. -/
def listClause : Tree :=
  let token (text : String) (start stop : Nat) : Tree := .node ⟨text, false, start, stop, none⟩ []
  let name (start stop : Nat) : Tree := .node ⟨"type_identifier", true, start, stop, none⟩ []
  let arguments := Tree.node ⟨"type_arguments", true, 15, 20, none⟩
    [token "<" 15 16, name 16 19, token ">" 19 20]
  let generic := Tree.node ⟨"generic_type", true, 11, 20, none⟩ [name 11 15, arguments]
  let qualified := Tree.node ⟨"scoped_type_identifier", true, 22, 25, none⟩
    [name 22 23, token "." 23 24, name 24 25]
  .node ⟨"super_interfaces", true, 0, 25, none⟩
    [token "implements" 0 10,
      .node ⟨"type_list", true, 11, 25, none⟩ [generic, token "," 20 21, qualified]]

/-- A file that holds the clause alone. -/
def listFile : ParsedFile :=
  { path := "a.java", language := .java, grammar := "java", hasError := false,
    source := Text.Utf8.encode "implements List<Foo>, a.B".toList, tree := listClause }

theorem inTextOrder_listClause : listClause.InTextOrder :=
  ⟨by simp [listClause, Tree.label], by simp [listClause, Tree.label, Tree.children]⟩

/-- The clause names two types: that in the arguments is none of them, nor are the parts of
`a.B`. -/
theorem walk_and_typeNames_list : listClause.InTextOrder ∧
    typeNames listFile (some listClause) = ["List", "a.B"] ∧
    ∃ places, ["List", "a.B"] = places.map (fun p => listFile.textOf p.tree) ∧
      Lists listClause IsOutermostName places ∧
      places.Pairwise fun a b => a.tree.label.stop ≤ b.tree.label.start := by
  have named : typeNames listFile (some listClause) = ["List", "a.B"] := by decide +kernel
  obtain ⟨places, names, lists, behind⟩ := walk_and_typeNames.2 listFile listClause
  rw [named] at names
  exact ⟨inTextOrder_listClause, named, places, names, lists, behind inTextOrder_listClause⟩

end Java

end CodeGraph
