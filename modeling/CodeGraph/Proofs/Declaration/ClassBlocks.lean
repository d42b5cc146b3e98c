import CodeGraph.Proofs.Declaration.Reading

/-!
# Functions in the blocks of classes

A function stands in a class if it is a statement of the block of the class, as it is or inside one
decorated definition (`InBlockOf`); there is at most one such class (`InBlockOf.unique`).  Whether
there is one is told by looking upwards from the function (`isMethod_iff`); which functions they are
is found by looking downwards from the class (`mem_methodPlaces_iff`), in trees of the shape that
the grammar gives (`Shaped`).
-/

namespace CodeGraph.Python

variable {file : ParsedFile} {root : Tree} {p q c : Place}

/-! ## Functions in classes -/

/-- The place stands in the block of the class at `c`, directly or inside one decorated
definition. -/
def InBlockOf (c p : Place) : Prop :=
  c.kind = "class_definition" ∧ ∃ block ∈ c.children, block.kind = "block" ∧
    (p ∈ block.children ∨
      ∃ wrapper ∈ block.children, wrapper.kind = "decorated_definition" ∧ p ∈ wrapper.children)

/-- What the grammar guarantees: a class has a name, and its body, if it has one, is its only block;
a function in a decorated definition is its definition, and the only function there. -/
structure Shaped (t : Tree) : Prop where
  named : t.kind = "class_definition" → (t.fieldChild? "name").isSome
  block : t.kind = "class_definition" →
    (t.children.filter fun child => child.kind = "block") = (t.fieldChild? "body").toList
  definition : t.kind = "decorated_definition" → ∀ f ∈ t.children, f.kind = "function_definition" →
    t.fieldChild? "definition" = some f ∧
      (t.children.filter fun child => child.kind = "function_definition") = [f]

/-- A place that is reached from a root is a child of its parent. -/
theorem mem_children_of_parent? (h : p ∈ (Place.root root).preorder) (parent : p.parent? = some q) :
    p ∈ q.children ∧ q ∈ (Place.root root).preorder := by
  rcases Relation.ReflTransGen.cases_tail (Place.mem_preorder_iff.1 h) with rfl | ⟨o, ho, hop⟩
  · cases parent
  · have same : o = q := Option.some.inj ((Place.parent?_of_mem_children hop).symm.trans parent)
    subst same
    exact ⟨hop, Place.mem_preorder_iff.2 ho⟩

theorem isClassBody_iff (h : p ∈ (Place.root root).preorder) :
    isClassBody p = true ↔
      p.kind = "block" ∧ ∃ c : Place, c.kind = "class_definition" ∧ p ∈ c.children := by
  rw [isClassBody, Bool.and_eq_true, decide_eq_true_iff, Option.any_eq_true]
  refine and_congr_right fun _ => ⟨?_, ?_⟩
  · rintro ⟨c, parent, isClass⟩
    exact ⟨c, of_decide_eq_true isClass, (mem_children_of_parent? h parent).1⟩
  · rintro ⟨c, isClass, hp⟩
    exact ⟨c, Place.parent?_of_mem_children hp, decide_eq_true isClass⟩

/-- The walk tells by the nodes above a function whether it stands in a class. -/
theorem isMethod_iff (h : p ∈ (Place.root root).preorder) :
    isMethod p = true ↔ ∃ c, InBlockOf c p := by
  constructor
  · intro method
    unfold isMethod at method
    split at method
    · rename_i parent hparent
      obtain ⟨hp, inside⟩ := mem_children_of_parent? h hparent
      split_ifs at method with wrapped
      · obtain ⟨block, hblock, isBody⟩ := (Option.any_eq_true _ _).1 method
        obtain ⟨hwrapper, above⟩ := mem_children_of_parent? inside hblock
        obtain ⟨kind, c, isClass, hc⟩ := (isClassBody_iff above).1 isBody
        exact ⟨c, isClass, block, hc, kind, Or.inr ⟨parent, hwrapper, wrapped, hp⟩⟩
      · obtain ⟨kind, c, isClass, hc⟩ := (isClassBody_iff inside).1 method
        exact ⟨c, isClass, parent, hc, kind, Or.inl hp⟩
    · cases method
  · rintro ⟨c, isClass, block, hblock, kind, hp | ⟨wrapper, hwrapper, wrapped, hp⟩⟩
    · have parent : block.parent? = some c := Place.parent?_of_mem_children hblock
      simp [isMethod, Place.parent?_of_mem_children hp, isClassBody, kind, parent, isClass]
    · have above : wrapper.parent? = some block := Place.parent?_of_mem_children hwrapper
      have parent : block.parent? = some c := Place.parent?_of_mem_children hblock
      simp [isMethod, Place.parent?_of_mem_children hp, wrapped, above, isClassBody, kind, parent,
        isClass]

theorem ne_of_kind {a b : Place} {k l : String} (ha : a.kind = k) (hb : b.kind = l)
    (differ : k ≠ l) : a ≠ b := by
  rintro rfl
  exact differ (ha.symm.trans hb)

/-- A function stands in one class only. -/
theorem InBlockOf.unique {c c' : Place} (h : InBlockOf c p) (h' : InBlockOf c' p) : c = c' := by
  obtain ⟨-, block, hblock, kind, inner⟩ := h
  obtain ⟨-, block', hblock', kind', inner'⟩ := h'
  have apart {a b : Place} (ha : a.kind = "block") (hb : b.kind = "decorated_definition") :
      a ≠ b := ne_of_kind ha hb (by decide)
  have same : block = block' := by
    rcases inner with hp | ⟨wrapper, hwrapper, wrapped, hp⟩ <;>
      rcases inner' with hp' | ⟨wrapper', hwrapper', wrapped', hp'⟩
    · exact Place.eq_of_mem_children hp hp'
    · exact absurd (Place.eq_of_mem_children hp hp') (apart kind wrapped')
    · exact absurd (Place.eq_of_mem_children hp' hp) (apart kind' wrapped)
    · have wrappers := Place.eq_of_mem_children hp hp'
      subst wrappers
      exact Place.eq_of_mem_children hwrapper hwrapper'
  subst same
  exact Place.eq_of_mem_children hblock hblock'

theorem InBlockOf.mem_preorder_iff (h : InBlockOf c p) :
    c ∈ (Place.root root).preorder ↔ p ∈ (Place.root root).preorder := by
  obtain ⟨-, block, hblock, -, inner⟩ := h
  have up {x y : Place} (hy : y ∈ x.children) :
      x ∈ (Place.root root).preorder ↔ y ∈ (Place.root root).preorder :=
    ⟨fun hx => Place.mem_preorder_of_mem_children hx hy,
      fun mem => (mem_children_of_parent? mem (Place.parent?_of_mem_children hy)).2⟩
  rw [up hblock]
  rcases inner with hp | ⟨wrapper, hwrapper, -, hp⟩
  · exact up hp
  · rw [up hwrapper, up hp]

/-! ## Methods of a class -/

/-- The places of the functions in the body of the class at a place. -/
def methodPlaces (c : Place) : List Place :=
  match c.fieldChild? "body" with
  | none => []
  | some body => body.children.filterMap definition?

/-- The body of a class is its block. -/
theorem fieldChild?_body_iff (shaped : Shaped c.tree) (isClass : c.kind = "class_definition") :
    c.fieldChild? "body" = some p ↔ p ∈ c.children ∧ p.kind = "block" := by
  have block := shaped.block isClass
  rw [← Place.map_tree_fieldChild?] at block
  constructor
  · intro h
    have mem : p.tree ∈ c.tree.children.filter fun child => child.kind = "block" := by
      rw [block, h]
      exact List.mem_singleton.2 rfl
    exact ⟨Place.mem_children_of_fieldChild? h, of_decide_eq_true (List.mem_filter.1 mem).2⟩
  · rintro ⟨hp, kind⟩
    have mem : p.tree ∈ c.tree.children.filter fun child => child.kind = "block" :=
      List.mem_filter.2 ⟨Place.tree_mem_of_mem_children hp, decide_eq_true kind⟩
    cases body : c.fieldChild? "body" with
    | none =>
      rw [block, body] at mem
      cases mem
    | some b =>
      rw [body] at block
      have isBlock : b.tree ∈ c.tree.children.filter fun child => child.kind = "block" := by
        rw [block]
        exact List.mem_singleton.2 rfl
      have same := Place.eq_of_filter_children block (Place.mem_children_of_fieldChild? body) hp
        (List.mem_filter.1 isBlock).2 (decide_eq_true kind)
      rw [same]

/-- A statement of a block defines the function that it is or wraps. -/
theorem definition?_eq_some_iff (shaped : Shaped q.tree) :
    definition? q = some p ↔ p.kind = "function_definition" ∧
      (p = q ∨ q.kind = "decorated_definition" ∧ p ∈ q.children) := by
  unfold definition?
  rw [Option.filter_eq_some_iff, decide_eq_true_iff, and_comm]
  refine and_congr_right fun isFunction => ?_
  by_cases wrapped : q.kind = "decorated_definition"
  · have apart : p ≠ q := ne_of_kind isFunction wrapped (by decide)
    rw [if_pos wrapped]
    constructor
    · intro h
      right
      rcases Option.or_eq_some_iff.1 h with h | ⟨-, h⟩
      · exact ⟨wrapped, Place.mem_children_of_fieldChild? h⟩
      · exact ⟨wrapped, Place.mem_children_of_kindChild? h⟩
    · rintro (same | ⟨-, hp⟩)
      · exact absurd same apart
      · obtain ⟨field, only⟩ :=
          shaped.definition wrapped p.tree (Place.tree_mem_of_mem_children hp) isFunction
        rw [← Place.map_tree_fieldChild?] at field
        obtain ⟨f, hf, node⟩ := Option.map_eq_some_iff.1 field
        have kind : f.tree.kind = "function_definition" := by
          rw [node]
          exact isFunction
        have same := Place.eq_of_filter_children only (Place.mem_children_of_fieldChild? hf) hp
          (decide_eq_true kind) (decide_eq_true isFunction)
        rw [hf, same]
        rfl
  · rw [if_neg wrapped]
    constructor
    · intro h
      exact Or.inl (Option.some.inj h).symm
    · rintro (rfl | ⟨isWrapped, -⟩)
      · rfl
      · exact absurd isWrapped wrapped

/-- The class finds below it the functions that the walk leaves to it. -/
theorem mem_methodPlaces_iff (shaped : root.Everywhere Shaped) (h : c ∈ (Place.root root).preorder)
    (isClass : c.kind = "class_definition") :
    p ∈ methodPlaces c ↔ p.kind = "function_definition" ∧ InBlockOf c p := by
  have shapedAt {x : Place} (hx : x ∈ (Place.root root).preorder) : Shaped x.tree :=
    Tree.Everywhere.of_mem_preorder (p := .root root) shaped hx
  have below {block : Place} (hb : block ∈ c.children) : ∀ x ∈ block.children, Shaped x.tree := by
    intro x hx
    have inside := Place.mem_preorder_of_mem_children h hb
    exact shapedAt (Place.mem_preorder_of_mem_children inside hx)
  constructor
  · intro hp
    unfold methodPlaces at hp
    split at hp
    · cases hp
    · rename_i body hbody
      obtain ⟨hb, kind⟩ := (fieldChild?_body_iff (shapedAt h) isClass).1 hbody
      obtain ⟨statement, hs, found⟩ := List.mem_filterMap.1 hp
      obtain ⟨isFunction, whole⟩ := (definition?_eq_some_iff (below hb statement hs)).1 found
      refine ⟨isFunction, isClass, body, hb, kind, ?_⟩
      rcases whole with rfl | ⟨wrapped, inner⟩
      · exact Or.inl hs
      · exact Or.inr ⟨statement, hs, wrapped, inner⟩
  · rintro ⟨isFunction, -, body, hb, kind, inner⟩
    unfold methodPlaces
    rw [(fieldChild?_body_iff (shapedAt h) isClass).2 ⟨hb, kind⟩]
    refine List.mem_filterMap.2 ?_
    rcases inner with hp | ⟨wrapper, hw, wrapped, hp⟩
    · exact ⟨p, hp, (definition?_eq_some_iff (below hb p hp)).2 ⟨isFunction, Or.inl rfl⟩⟩
    · exact ⟨wrapper, hw,
        (definition?_eq_some_iff (below hb wrapper hw)).2 ⟨isFunction, Or.inr ⟨wrapped, hp⟩⟩⟩

theorem nodup_methodPlaces (shaped : root.Everywhere Shaped) (h : c ∈ (Place.root root).preorder)
    (isClass : c.kind = "class_definition") : (methodPlaces c).Nodup := by
  unfold methodPlaces
  split
  · exact List.nodup_nil
  · rename_i body hbody
    have shapedAt {x : Place} (hx : x ∈ (Place.root root).preorder) : Shaped x.tree :=
      Tree.Everywhere.of_mem_preorder (p := .root root) shaped hx
    obtain ⟨hb, kind⟩ := (fieldChild?_body_iff (shapedAt h) isClass).1 hbody
    have inside := Place.mem_preorder_of_mem_children h hb
    rw [List.Nodup, List.pairwise_filterMap]
    refine (Place.nodup_children body).imp_of_mem fun {a b} ha hb differ f hf g hg same => differ ?_
    subst same
    obtain ⟨-, wholeA⟩ :=
      (definition?_eq_some_iff (shapedAt (Place.mem_preorder_of_mem_children inside ha))).1 hf
    obtain ⟨-, wholeB⟩ :=
      (definition?_eq_some_iff (shapedAt (Place.mem_preorder_of_mem_children inside hb))).1 hg
    -- a function of the block is not also wrapped: its parent is the block
    have apart {x : Place} (wrapped : x.kind = "decorated_definition") : body ≠ x :=
      ne_of_kind kind wrapped (by decide)
    rcases wholeA with rfl | ⟨wrappedA, innerA⟩
    · rcases wholeB with rfl | ⟨wrappedB, innerB⟩
      · rfl
      · exact absurd (Place.eq_of_mem_children ha innerB) (apart wrappedB)
    · rcases wholeB with rfl | ⟨-, innerB⟩
      · exact absurd (Place.eq_of_mem_children hb innerA) (apart wrappedA)
      · exact Place.eq_of_mem_children innerA innerB

end CodeGraph.Python
