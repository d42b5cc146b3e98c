import CodeGraph.Proofs.Declaration.ClassBlocks

/-!
# Definitions of Python

A function in the block of a class is reported with that class, every other function where the walk
meets it (`ReportedAt`).  Looking up from the function and down from the class give the same answer,
so the places reported are the definitions with a name, each once, in another order
(`reportedOrder_perm`), and the declarations correspond to them one by one (`declarations_once`).
-/

namespace CodeGraph.Python

variable {file : ParsedFile} {root : Tree} {p q c : Place}

/-! ## Where definitions are reported -/

/-- The definitions of a tree that have a name, in preorder. -/
def definitions (root : Tree) : List Place :=
  (Place.root root).preorder.filter fun p =>
    (p.kind = "function_definition" || p.kind = "class_definition") &&
      (p.tree.fieldChild? "name").isSome

/-- The place where the walk reports a definition: the class around a method, otherwise its own. -/
def ReportedAt (q p : Place) : Prop :=
  (p.kind = "function_definition" ∧ InBlockOf q p) ∨
    (p = q ∧ (p.kind = "class_definition" ∨
      (p.kind = "function_definition" ∧ ∀ c, ¬InBlockOf c p)))

theorem kind_ne_class (h : p.kind = "function_definition") : p.kind ≠ "class_definition" :=
  h.trans_ne (by decide)

theorem ReportedAt.unique {q q' : Place} (h : ReportedAt q p) (h' : ReportedAt q' p) : q = q' := by
  rcases h with ⟨isFunction, inside⟩ | ⟨rfl, isClass | ⟨-, free⟩⟩
  · rcases h' with ⟨-, inside'⟩ | ⟨rfl, isClass' | ⟨-, free'⟩⟩
    · exact inside.unique inside'
    · exact absurd isClass' (kind_ne_class isFunction)
    · exact absurd inside (free' q)
  · rcases h' with ⟨isFunction', -⟩ | ⟨same, -⟩
    · exact absurd isClass (kind_ne_class isFunction')
    · exact same
  · rcases h' with ⟨-, inside'⟩ | ⟨same, -⟩
    · exact absurd inside' (free q')
    · exact same

/-- The definitions that are reported at a place, those without a name included. -/
def reportedPlaces (q : Place) : List Place :=
  if q.kind = "function_definition" then if isMethod q then [] else [q]
  else if q.kind = "class_definition" then q :: methodPlaces q
  else []

theorem mem_reportedPlaces_iff (shaped : root.Everywhere Shaped)
    (h : q ∈ (Place.root root).preorder) : p ∈ reportedPlaces q ↔ ReportedAt q p := by
  unfold reportedPlaces ReportedAt
  split_ifs with isFunction method isClass
  · obtain ⟨c, inside⟩ := (isMethod_iff h).1 method
    constructor
    · intro hp
      cases hp
    · rintro (⟨-, isClass, -⟩ | ⟨rfl, isClass | ⟨-, free⟩⟩)
      · exact absurd isClass (kind_ne_class isFunction)
      · exact absurd isClass (kind_ne_class isFunction)
      · exact absurd inside (free c)
  · rw [List.mem_singleton]
    constructor
    · rintro rfl
      have free : ∀ c, ¬InBlockOf c p := fun c inside => method ((isMethod_iff h).2 ⟨c, inside⟩)
      exact Or.inr ⟨rfl, Or.inr ⟨isFunction, free⟩⟩
    · rintro (⟨-, isClass, -⟩ | ⟨rfl, -⟩)
      · exact absurd isClass (kind_ne_class isFunction)
      · rfl
  · rw [List.mem_cons, mem_methodPlaces_iff shaped h isClass]
    constructor
    · rintro (rfl | inside)
      · exact Or.inr ⟨rfl, Or.inl isClass⟩
      · exact Or.inl inside
    · rintro (inside | ⟨rfl, -⟩)
      · exact Or.inr inside
      · exact Or.inl rfl
  · constructor
    · intro hp
      cases hp
    · rintro (⟨-, other, -⟩ | ⟨rfl, other | ⟨other, -⟩⟩)
      · exact absurd other isClass
      · exact absurd other isClass
      · exact absurd other isFunction

theorem nodup_reportedPlaces (shaped : root.Everywhere Shaped)
    (h : q ∈ (Place.root root).preorder) : (reportedPlaces q).Nodup := by
  unfold reportedPlaces
  split_ifs with isFunction method isClass
  · exact List.nodup_nil
  · exact List.nodup_singleton q
  · refine List.nodup_cons.2 ⟨fun hq => ?_, nodup_methodPlaces shaped h isClass⟩
    exact isFunction ((mem_methodPlaces_iff shaped h isClass).1 hq).1
  · exact List.nodup_nil

/-- The definitions with a name in the order in which they are reported. -/
def reportedOrder (root : Tree) : List Place :=
  (Place.root root).preorder.flatMap fun q =>
    (reportedPlaces q).filter fun p => (p.tree.fieldChild? "name").isSome

theorem nodup_reportedOrder (shaped : root.Everywhere Shaped) : (reportedOrder root).Nodup := by
  unfold reportedOrder
  rw [List.nodup_flatMap]
  refine ⟨fun q hq => (nodup_reportedPlaces shaped hq).filter _, ?_⟩
  refine (Place.nodup_preorder _).imp_of_mem fun {a b} ha hb differ p hpa hpb => differ ?_
  have atA := (mem_reportedPlaces_iff shaped ha).1 (List.mem_filter.1 hpa).1
  have atB := (mem_reportedPlaces_iff shaped hb).1 (List.mem_filter.1 hpb).1
  exact atA.unique atB

theorem mem_reportedOrder_iff (shaped : root.Everywhere Shaped) :
    p ∈ reportedOrder root ↔ p ∈ definitions root := by
  unfold reportedOrder definitions
  rw [List.mem_flatMap, List.mem_filter, Bool.and_eq_true, Bool.or_eq_true, decide_eq_true_iff,
    decide_eq_true_iff]
  constructor
  · rintro ⟨q, hq, hp⟩
    obtain ⟨found, named⟩ := List.mem_filter.1 hp
    rcases (mem_reportedPlaces_iff shaped hq).1 found with
      ⟨isFunction, inside⟩ | ⟨rfl, isClass | ⟨isFunction, -⟩⟩
    · exact ⟨inside.mem_preorder_iff.1 hq, Or.inl isFunction, named⟩
    · exact ⟨hq, Or.inr isClass, named⟩
    · exact ⟨hq, Or.inl isFunction, named⟩
  · rintro ⟨hp, kind, named⟩
    have reported : ∃ q ∈ (Place.root root).preorder, ReportedAt q p := by
      rcases kind with isFunction | isClass
      · by_cases inside : ∃ c, InBlockOf c p
        · obtain ⟨c, inside⟩ := inside
          exact ⟨c, inside.mem_preorder_iff.2 hp, Or.inl ⟨isFunction, inside⟩⟩
        · exact ⟨p, hp, Or.inr ⟨rfl, Or.inr ⟨isFunction, not_exists.1 inside⟩⟩⟩
      · exact ⟨p, hp, Or.inr ⟨rfl, Or.inl isClass⟩⟩
    obtain ⟨q, hq, reported⟩ := reported
    exact ⟨q, hq, List.mem_filter.2 ⟨(mem_reportedPlaces_iff shaped hq).2 reported, named⟩⟩

theorem reportedOrder_perm (shaped : root.Everywhere Shaped) :
    (reportedOrder root).Perm (definitions root) :=
  (List.perm_ext_iff_of_nodup (nodup_reportedOrder shaped) ((Place.nodup_preorder _).filter _)).2
    fun _ => mem_reportedOrder_iff shaped

/-! ## What is reported -/

/-- The declaration of the definition at a place: a class, a method of the class in whose block the
function stands, or a function. -/
structure Reports (file : ParsedFile) (p : Place) (d : Declaration) : Prop
    extends ReadsOff file p d where
  classType : p.kind = "class_definition" → d.kind = .classType ∧ d.owner = none
  method : p.kind = "function_definition" → ∀ c, InBlockOf c p → d.kind = .method ∧
    ∃ t ∈ declarations file, ReadsOff file c t ∧ t.kind = .classType ∧ d.owner = some t.id
  function : p.kind = "function_definition" → (∀ c, ¬InBlockOf c p) →
    d.kind = .function ∧ d.owner = none

theorem declarations_eq (file : ParsedFile) :
    declarations file = (Place.root file.tree).preorder.flatMap (declaredAt file) := by
  rw [declarations, ParsedFile.declarationsBy, emitted_eq_flatMap, Tree.places_eq]

theorem functionAt_unnamed (h : p.tree.fieldChild? "name" = none) (owner : Option String) :
    functionAt file owner p = [] := by
  rw [functionAt, h]

theorem exists_functionAt (file : ParsedFile) {name : Tree}
    (named : p.tree.fieldChild? "name" = some name)
    (owner : Option String) :
    ∃ d, functionAt file owner p = [d] ∧ ReadsOff file p d ∧
      d.kind = (if owner.isSome then .method else .function) ∧ d.owner = owner := by
  unfold functionAt
  rw [named]
  exact ⟨_, rfl, readsOff_declaration _ _ named _ _, rfl, rfl⟩

/-- A function in no class gives one function, if it has a name. -/
theorem forall₂_function (isFunction : p.kind = "function_definition")
    (free : ∀ c, ¬InBlockOf c p) :
    List.Forall₂ (Reports file) ([p].filter fun p => (p.tree.fieldChild? "name").isSome)
      (functionAt file none p) := by
  cases named : p.tree.fieldChild? "name" with
  | none =>
    rw [functionAt_unnamed named, List.filter_cons_of_neg (by simp [named])]
    exact .nil
  | some name =>
    obtain ⟨d, found, read, kind, owner⟩ := exists_functionAt file named none
    rw [found, List.filter_cons_of_pos (by simp [named])]
    refine .cons ⟨read, ?_, ?_, ?_⟩ .nil
    · exact fun isClass => absurd isClass (kind_ne_class isFunction)
    · exact fun _ c inside => absurd inside (free c)
    · exact fun _ _ => ⟨kind, owner⟩

theorem exists_classAt (file : ParsedFile) {name : Tree}
    (named : c.tree.fieldChild? "name" = some name) :
    ∃ t, classAt file c = t :: (methodPlaces c).flatMap (functionAt file (some t.id)) ∧
      ReadsOff file c t ∧ t.kind = .classType ∧ t.owner = none := by
  unfold classAt methodPlaces
  rw [named]
  cases c.fieldChild? "body" with
  | none => exact ⟨_, rfl, readsOff_declaration _ _ named _ _, rfl, rfl⟩
  | some body => exact ⟨_, rfl, readsOff_declaration _ _ named _ _, rfl, rfl⟩

/-- A class gives a class and then one method for every function with a name in its block. -/
theorem forall₂_classAt (shaped : file.tree.Everywhere Shaped)
    (h : c ∈ (Place.root file.tree).preorder) (isClass : c.kind = "class_definition") :
    List.Forall₂ (Reports file)
      ((c :: methodPlaces c).filter fun p => (p.tree.fieldChild? "name").isSome)
      (classAt file c) := by
  have plain : c.kind ≠ "function_definition" := fun isFunction => kind_ne_class isFunction isClass
  have shapedHere : Shaped c.tree := Tree.Everywhere.of_mem_preorder (p := .root file.tree) shaped h
  obtain ⟨name, named⟩ := Option.isSome_iff_exists.1 (shapedHere.named isClass)
  obtain ⟨t, family, read, kind, owner⟩ := exists_classAt file named
  have listed : t ∈ declarations file := by
    rw [declarations_eq]
    refine List.mem_flatMap.2 ⟨c, h, ?_⟩
    rw [declaredAt, if_neg plain, if_pos isClass, family]
    exact List.mem_cons_self
  rw [family, List.filter_cons_of_pos (by simp [named])]
  refine .cons ⟨read, ?_, ?_, ?_⟩ ?_
  · exact fun _ => ⟨kind, owner⟩
  · exact fun isFunction => absurd isFunction plain
  · exact fun isFunction => absurd isFunction plain
  · refine forall₂_filter_flatMap (fun p hp hname => ?_) fun p _ unnamed => ?_
    · obtain ⟨isFunction, inside⟩ := (mem_methodPlaces_iff shaped h isClass).1 hp
      obtain ⟨own, hown⟩ := Option.isSome_iff_exists.1 hname
      obtain ⟨d, found, readHere, method, ownedBy⟩ := exists_functionAt file hown (some t.id)
      refine ⟨d, found, readHere, ?_, ?_, ?_⟩
      · exact fun isClass => absurd isClass (kind_ne_class isFunction)
      · intro _ c' inside'
        obtain rfl := inside.unique inside'
        exact ⟨method, t, listed, read, kind, ownedBy⟩
      · exact fun _ free => absurd inside (free c)
    · exact functionAt_unnamed (Option.isNone_iff_eq_none.1 (by simpa using unnamed)) _

theorem forall₂_declaredAt (shaped : file.tree.Everywhere Shaped)
    (h : q ∈ (Place.root file.tree).preorder) :
    List.Forall₂ (Reports file)
      ((reportedPlaces q).filter fun p => (p.tree.fieldChild? "name").isSome)
      (declaredAt file q) := by
  unfold reportedPlaces declaredAt
  split_ifs with isFunction method isClass
  · exact .nil
  · refine forall₂_function isFunction fun c inside => method ?_
    exact (isMethod_iff h).2 ⟨c, inside⟩
  · exact forall₂_classAt shaped h isClass
  · exact .nil

/-- In a tree of the shape that the grammar gives, every function and every class with a name is
declared once, and nothing else is: the declarations correspond one to one to an arrangement of
these nodes.  A function is a method, owned by the class in whose block it stands, directly or
inside one decorated definition, and a function without an owner if it stands in no such block. -/
theorem declarations_once (shaped : file.tree.Everywhere Shaped) :
    ∃ order : List Place, order.Nodup ∧ order.Perm (definitions file.tree) ∧
      List.Forall₂ (Reports file) order (declarations file) := by
  refine ⟨reportedOrder file.tree, nodup_reportedOrder shaped, reportedOrder_perm shaped, ?_⟩
  rw [declarations_eq]
  exact forall₂_flatMap fun q hq => forall₂_declaredAt shaped hq

/-! ## A decorated method with a function in it -/

theorem shaped_iff {t : Tree} :
    Shaped t ↔
      (t.kind = "class_definition" → (t.fieldChild? "name").isSome ∧
        (t.children.filter fun child => child.kind = "block") = (t.fieldChild? "body").toList) ∧
      (t.kind = "decorated_definition" → ∀ f ∈ t.children, f.kind = "function_definition" →
        t.fieldChild? "definition" = some f ∧
          (t.children.filter fun child => child.kind = "function_definition") = [f]) :=
  ⟨fun h => ⟨fun kind => ⟨h.named kind, h.block kind⟩, h.definition⟩,
    fun h => ⟨fun kind => (h.1 kind).1, fun kind => (h.1 kind).2, h.2⟩⟩

/-- A class with a decorated method, in which a function is defined. -/
def decoratedFile : ParsedFile :=
  let token (text : String) (start stop : Nat) : Tree := .node ⟨text, false, start, stop, none⟩ []
  let name (start : Nat) : Tree := .node ⟨"identifier", true, start, start + 1, some "name"⟩ []
  let block (start stop : Nat) (inside : List Tree) : Tree :=
    .node ⟨"block", true, start, stop, some "body"⟩ inside
  let inner := Tree.node ⟨"function_definition", true, 30, 43, none⟩
    [token "def" 30 33, name 34, block 39 43 [.node ⟨"pass_statement", true, 39, 43, none⟩ []]]
  let method := Tree.node ⟨"function_definition", true, 16, 43, some "definition"⟩
    [token "def" 16 19, name 20, block 30 43 [inner]]
  let wrapper := Tree.node ⟨"decorated_definition", true, 11, 43, none⟩
    [.node ⟨"decorator", true, 11, 13, none⟩ [], method]
  { path := "a.py", language := .python, grammar := "python", hasError := false,
    source := Text.Utf8.encode "class A:\n  @d\n  def m(s):\n    def g(): pass\n".toList,
    tree := .node ⟨"module", true, 0, 44, none⟩
      [.node ⟨"class_definition", true, 0, 43, none⟩
        [token "class" 0 5, name 6, block 11 43 [wrapper]]] }

theorem everywhere_shaped_decoratedFile : decoratedFile.tree.Everywhere Shaped := by
  simp [decoratedFile, shaped_iff, Tree.kind, Tree.label, Tree.children, Tree.fieldChild?]

/-- The method is reported with its class, the function in it where it stands. -/
theorem declarations_once_decorated :
    decoratedFile.tree.Everywhere Shaped ∧
      (∃ order : List Place, order.Nodup ∧ order.Perm (definitions decoratedFile.tree) ∧
        List.Forall₂ (Reports decoratedFile) order (declarations decoratedFile)) ∧
      (declarations decoratedFile).map (fun d => (d.id, d.kind, d.owner)) =
        [("a.py:1:A", .classType, none), ("a.py:3:m", .method, some "a.py:1:A"),
          ("a.py:4:g", .function, none)] :=
  ⟨everywhere_shaped_decoratedFile, declarations_once everywhere_shaped_decoratedFile,
    by decide +kernel⟩

end CodeGraph.Python
