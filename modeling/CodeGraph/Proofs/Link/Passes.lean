import CodeGraph.Link.Resolve
import CodeGraph.Proofs.Identity
import CodeGraph.Proofs.Repeats

/-!
# What the passes find

For each pass, which links it finds and between which declarations.  A name leads to a declaration
of that name (`bestMatch_named`, `importTarget_named`), so every link leads from one declaration of
the batch to another.
-/

namespace CodeGraph

variable {ds : List Declaration} {files : List SourceFile} {l : Link}

/-! ## Candidates -/

@[simp, grind =]
theorem mem_named {d : Declaration} {name : String} :
    d ∈ named ds name ↔ d ∈ ds ∧ d.name = name := by
  simp [named]

/-- A search with something else to fall back on stays among the candidates if that does. -/
theorem mem_of_find?_or {candidates : List Declaration} {p : Declaration → Bool}
    {rest : Option Declaration} {t : Declaration} (h : (candidates.find? p).or rest = some t)
    (later : rest = some t → t ∈ candidates) : t ∈ candidates := by
  rcases Option.or_eq_some_iff.1 h with h | ⟨-, h⟩
  · exact List.mem_of_find?_eq_some h
  · exact later h

@[grind →]
theorem bestMatch_mem {source t : Declaration} {candidates : List Declaration}
    (h : bestMatch source candidates = some t) : t ∈ candidates := by
  rw [bestMatch_eq] at h
  refine mem_of_find?_or h fun h => ?_
  refine mem_of_find?_or h fun h => ?_
  exact mem_of_find?_or h List.mem_of_head?

theorem exists_bestMatch (source : Declaration) {candidates : List Declaration}
    (any : candidates ≠ []) : ∃ t, bestMatch source candidates = some t := by
  obtain ⟨c, rest, rfl⟩ := List.exists_cons_of_ne_nil any
  rw [← Option.isSome_iff_exists]
  simp [bestMatch_eq]

theorem bestMatch_named {source t : Declaration} {name : String}
    (h : bestMatch source (named ds name) = some t) : t ∈ ds ∧ t.name = name :=
  mem_named.1 (bestMatch_mem h)

@[grind →]
theorem importTarget_mem {candidates : List Declaration} {fromFile source : List Char}
    {language : Option Language} {t : Declaration}
    (h : importTarget candidates fromFile source language = some t) : t ∈ candidates := by
  unfold importTarget at h
  rcases Option.or_eq_some_iff.1 h with h | ⟨-, h⟩
  · obtain ⟨path, -, h⟩ := Option.bind_eq_some_iff.1 h
    exact List.mem_of_find?_eq_some h
  rcases Option.or_eq_some_iff.1 h with h | ⟨-, h⟩
  · obtain ⟨path, -, h⟩ := Option.bind_eq_some_iff.1 h
    exact List.mem_of_find?_eq_some h
  · exact mem_of_find?_or h List.mem_of_head?

theorem importTarget_named {fromFile source : List Char} {language : Option Language}
    {name : String} {t : Declaration}
    (h : importTarget (named ds name) fromFile source language = some t) :
    t ∈ ds ∧ t.name = name :=
  mem_named.1 (importTarget_mem h)

theorem representative?_mem {own : List Declaration} {d : Declaration}
    (h : representative? own = some d) : d ∈ own :=
  mem_of_find?_or h List.mem_of_head?

/-! ## Ownership -/

theorem filled?_eq_some_iff {text : Option String} {t : String} :
    filled? text = some t ↔ text = some t ∧ t ≠ "" := by
  simp [filled?, Option.filter_eq_some_iff]

@[simp]
theorem filled?_id (d : Declaration) : filled? (some d.id) = some d.id :=
  filled?_eq_some_iff.2 ⟨rfl, declarationId_ne_empty _ _ _⟩

/-- The link from an owner in the batch to its member. -/
def memberLink (owner : String) (d : Declaration) : Link :=
  .shown .ownership owner d.id d.span.start (d.name ++ " is a member of its parent")

theorem ownershipLink?_eq_some_iff {d : Declaration} :
    ownershipLink? ds d = some l ↔ ∃ t ∈ ds, d.owner = some t.id ∧ l = memberLink t.id d := by
  unfold ownershipLink?
  constructor
  · intro h
    split at h
    · rename_i owner howner
      split_ifs at h with known
      obtain ⟨t, ht, htid⟩ := List.any_eq_true.1 known
      obtain rfl : t.id = owner := of_decide_eq_true htid
      exact ⟨t, ht, (filled?_eq_some_iff.1 howner).1, (Option.some.inj h).symm⟩
    · cases h
  · rintro ⟨t, ht, howner, rfl⟩
    have known : (ds.any fun o => o.id = t.id) = true :=
      List.any_eq_true.2 ⟨t, ht, decide_eq_true rfl⟩
    rw [howner, filled?_id]
    simp only [known, if_true]
    rfl

theorem mem_ownershipLinks :
    l ∈ ownershipLinks ds ↔ ∃ d ∈ ds, ∃ t ∈ ds, d.owner = some t.id ∧ l = memberLink t.id d := by
  rw [ownershipLinks, List.mem_filterMap]
  simp only [ownershipLink?_eq_some_iff]

/-! ## Inheritance -/

theorem baseLink?_eq_some {kind : LinkKind} {verb base : String} {d : Declaration}
    (h : baseLink? ds kind verb d base = some l) :
    l.kind = kind ∧ l.source = d.id ∧ ∃ t ∈ ds, t.name = base ∧ l.target = t.id := by
  obtain ⟨t, ht, rfl⟩ := Option.map_eq_some_iff.1 h
  obtain ⟨mem, name⟩ := bestMatch_named ht
  exact ⟨rfl, rfl, t, mem, name, rfl⟩

/-- A type extends the type that it names as its base, or implements one that it lists. -/
theorem mem_inheritanceLinksOf {d : Declaration} (h : l ∈ inheritanceLinksOf ds d) :
    ∃ t ∈ ds, d.kind.isType = true ∧ l.source = d.id ∧ l.target = t.id ∧
      (l.kind = .inheritance ∧ d.traits.base = some t.name ∨
        l.kind = .implementation ∧ t.name ∈ d.traits.interfaces) := by
  unfold inheritanceLinksOf at h
  obtain ⟨isType, h⟩ := List.mem_ite_nil_right.1 h
  rcases List.mem_append.1 h with h | h
  · obtain ⟨base, hbase, h⟩ := List.mem_filterMap.1 h
    obtain ⟨kind, source, t, ht, rfl, target⟩ := baseLink?_eq_some h
    have extended := (filled?_eq_some_iff.1 (Option.mem_toList.1 hbase)).1
    exact ⟨t, ht, isType, source, target, Or.inl ⟨kind, extended⟩⟩
  · obtain ⟨base, hbase, h⟩ := List.mem_filterMap.1 h
    obtain ⟨kind, source, t, ht, rfl, target⟩ := baseLink?_eq_some h
    exact ⟨t, ht, isType, source, target, Or.inr ⟨kind, hbase⟩⟩

theorem mem_inheritanceLinks (h : l ∈ inheritanceLinks ds) :
    ∃ d ∈ ds, ∃ t ∈ ds, d.kind.isType = true ∧ l.source = d.id ∧ l.target = t.id ∧
      (l.kind = .inheritance ∧ d.traits.base = some t.name ∨
        l.kind = .implementation ∧ t.name ∈ d.traits.interfaces) := by
  obtain ⟨d, hd, h⟩ := List.mem_flatMap.1 h
  exact ⟨d, hd, mem_inheritanceLinksOf h⟩

/-! ## Imports -/

/-- A declaration of a file imports one whose name stands in a statement of the file. -/
theorem mem_importLinksOf {table : ExtensionTable} {file : SourceFile}
    (h : l ∈ importLinksOf table ds file) :
    ∃ d ∈ ds, ∃ t ∈ ds, l.kind = .importing ∧ l.source = d.id ∧ l.target = t.id ∧
      d.path = file.path ∧
      ∃ statement ∈ Import.scan (table.language file.path) file.content.toList,
        l.site = some ⟨statement.line, 0⟩ ∧ t.name ∈ statement.names := by
  unfold importLinksOf at h
  split at h
  · cases h
  · rename_i d hd
    obtain ⟨own, path⟩ := List.mem_filter.1 (representative?_mem hd)
    obtain ⟨statement, hstatement, h⟩ := List.mem_flatMap.1 h
    obtain ⟨name, hname, h⟩ := List.mem_filterMap.1 h
    obtain ⟨t, ht, rfl⟩ := Option.map_eq_some_iff.1 h
    obtain ⟨mem, rfl⟩ := importTarget_named ht
    exact ⟨d, own, t, mem, rfl, rfl, rfl, of_decide_eq_true path, statement, hstatement, rfl,
      hname⟩

theorem mem_importLinks {table : ExtensionTable} (h : l ∈ importLinks table ds files) :
    ∃ file ∈ files, ∃ d ∈ ds, ∃ t ∈ ds, l.kind = .importing ∧ l.source = d.id ∧ l.target = t.id ∧
      d.path = file.path ∧
      ∃ statement ∈ Import.scan (table.language file.path) file.content.toList,
        l.site = some ⟨statement.line, 0⟩ ∧ t.name ∈ statement.names := by
  obtain ⟨file, hfile, h⟩ := List.mem_flatMap.1 h
  exact ⟨file, hfile, mem_importLinksOf h⟩

/-! ## Calls -/

theorem callLink?_eq_some {d : Declaration} {body : List Char} {name : String}
    (h : callLink? ds d body name = some l) :
    l.kind = .call ∧ l.source = d.id ∧ l.target ≠ d.id ∧
      ∃ t ∈ ds, t.name = name ∧ l.target = t.id := by
  unfold callLink? at h
  split_ifs at h with own
  split at h
  · cases h
  · split at h
    · cases h
    · rename_i t ht
      split_ifs at h with self
      cases h
      obtain ⟨mem, known⟩ := bestMatch_named ht
      exact ⟨rfl, rfl, self, t, mem, known, rfl⟩

/-- A function or method calls another declaration. -/
theorem mem_callLinksOf {names : List String} {texts : List (String × List (List Char))}
    {d : Declaration} (h : l ∈ callLinksOf ds names texts d) :
    ∃ t ∈ ds, l.kind = .call ∧ l.source = d.id ∧ l.target = t.id ∧ d.kind.isCallable = true ∧
      l.source ≠ l.target := by
  unfold callLinksOf at h
  obtain ⟨callable, h⟩ := List.mem_ite_nil_right.1 h
  split at h
  · obtain ⟨name, -, h⟩ := List.mem_filterMap.1 h
    obtain ⟨kind, source, differs, t, ht, -, target⟩ := callLink?_eq_some h
    exact ⟨t, ht, kind, source, target, callable, source ▸ differs.symm⟩
  · cases h

theorem mem_callLinks (h : l ∈ callLinks ds files) :
    ∃ d ∈ ds, ∃ t ∈ ds, l.kind = .call ∧ l.source = d.id ∧ l.target = t.id ∧
      d.kind.isCallable = true ∧ l.source ≠ l.target := by
  obtain ⟨d, hd, h⟩ := List.mem_flatMap.1 h
  exact ⟨d, hd, mem_callLinksOf h⟩

/-! ## All passes -/

@[simp, grind =]
theorem mem_allLinks {table : ExtensionTable} :
    l ∈ allLinks table ds files ↔ l ∈ ownershipLinks ds ∨ l ∈ inheritanceLinks ds ∨
      l ∈ importLinks table ds files ∨ l ∈ callLinks ds files := by
  simp only [allLinks, List.mem_append, or_assoc]

@[grind →]
theorem kind_of_mem_ownershipLinks (h : l ∈ ownershipLinks ds) : l.kind = .ownership := by
  obtain ⟨d, -, t, -, -, rfl⟩ := mem_ownershipLinks.1 h
  rfl

@[grind →]
theorem kind_of_mem_inheritanceLinks (h : l ∈ inheritanceLinks ds) :
    l.kind = .inheritance ∨ l.kind = .implementation := by
  obtain ⟨d, -, t, -, -, -, -, ⟨kind, -⟩ | ⟨kind, -⟩⟩ := mem_inheritanceLinks h
  · exact Or.inl kind
  · exact Or.inr kind

@[grind →]
theorem kind_of_mem_importLinks {table : ExtensionTable} (h : l ∈ importLinks table ds files) :
    l.kind = .importing := by
  obtain ⟨-, -, d, -, t, -, kind, -⟩ := mem_importLinks h
  exact kind

@[grind →]
theorem kind_of_mem_callLinks (h : l ∈ callLinks ds files) : l.kind = .call := by
  obtain ⟨d, -, t, -, kind, -⟩ := mem_callLinks h
  exact kind

/-- Bases come from the second pass only. -/
theorem mem_inheritanceLinks_of_kind {table : ExtensionTable} (h : l ∈ allLinks table ds files)
    (kind : l.kind = .inheritance ∨ l.kind = .implementation) : l ∈ inheritanceLinks ds := by
  grind

/-- Calls come from the last pass only. -/
theorem mem_callLinks_of_kind {table : ExtensionTable} (h : l ∈ allLinks table ds files)
    (kind : l.kind = .call) : l ∈ callLinks ds files := by
  grind

/-- Every link leads from a declaration of the batch to another. -/
theorem ends_of_mem_allLinks {table : ExtensionTable} (h : l ∈ allLinks table ds files) :
    ∃ s ∈ ds, ∃ t ∈ ds, l.source = s.id ∧ l.target = t.id := by
  rcases mem_allLinks.1 h with h | h | h | h
  · obtain ⟨d, hd, t, ht, -, rfl⟩ := mem_ownershipLinks.1 h
    exact ⟨t, ht, d, hd, rfl, rfl⟩
  · obtain ⟨d, hd, t, ht, -, source, target, -⟩ := mem_inheritanceLinks h
    exact ⟨d, hd, t, ht, source, target⟩
  · obtain ⟨-, -, d, hd, t, ht, -, source, target, -⟩ := mem_importLinks h
    exact ⟨d, hd, t, ht, source, target⟩
  · obtain ⟨d, hd, t, ht, -, source, target, -⟩ := mem_callLinks h
    exact ⟨d, hd, t, ht, source, target⟩

end CodeGraph
