import CodeGraph.Proofs.Link.Choice

/-!
# Types that are linked with themselves

The base of a type is looked up among all declarations of its name, and those of the type's own file
come first.  So a type that has its own name among its bases is linked with itself if it is the
first declaration of this name in its file (`resolve_selfLink`), even if the name is meant for a
type of another file.
-/

namespace CodeGraph

variable {ds : List Declaration} {files : List SourceFile} {d : Declaration} {kind : LinkKind}

/-- The best match for its own name is the first declaration of the name in the file. -/
theorem bestMatch_own_iff (hd : d ∈ ds) :
    bestMatch d (named ds d.name) = some d ↔
      IsFirst (fun e => e.name = d.name ∧ e.path = d.path) ds d := by
  have own (e : Declaration) : decide (e.name = d.name ∧ e.path = d.path) = true ↔
      e.name = d.name ∧ e.path = d.path := decide_eq_true_iff
  have inFile : (named ds d.name).find? (fun e => e.path = d.path) =
      ds.find? fun e => e.name = d.name ∧ e.path = d.path := by
    rw [named, List.find?_filter]
    simp only [decide_eq_true_eq]
  have found : (ds.find? fun e => e.name = d.name ∧ e.path = d.path).isSome :=
    List.find?_isSome.2 ⟨d, hd, (own d).2 ⟨rfl, rfl⟩⟩
  rw [← find?_eq_some_iff_isFirst own, bestMatch_eq, inFile, Option.or_of_isSome found]

/-- The type has its own name among its bases, and it is the first declaration of this name in its
file. -/
structure IsItsOwnBase (ds : List Declaration) (kind : LinkKind) (d : Declaration) : Prop where
  isType : d.kind.isType = true
  based : d.name ∈ basesOf kind d
  first : IsFirst (fun e => e.name = d.name ∧ e.path = d.path) ds d

theorem mem_ends_inheritanceLinks_own_iff (ids : (ds.map Declaration.id).Nodup) (hd : d ∈ ds) :
    (kind, d.id, d.id) ∈ (inheritanceLinks ds).map Link.ends ↔ IsItsOwnBase ds kind d := by
  rw [mem_ends_inheritanceLinks]
  constructor
  · rintro ⟨s, hs, isType, base, hbase, t, best, same⟩
    obtain ⟨source, target⟩ := Prod.mk.inj same
    obtain ⟨ht, rfl⟩ := bestMatch_named best
    obtain rfl := List.inj_on_of_nodup_map ids hd hs source
    obtain rfl := List.inj_on_of_nodup_map ids hd ht target
    exact ⟨isType, hbase, (bestMatch_own_iff hd).1 best⟩
  · intro own
    exact ⟨d, hd, own.isType, d.name, own.based, d, (bestMatch_own_iff hd).2 own.first, rfl⟩

/-- A type inherits from itself or implements itself only if it has its own name among its bases and
is the first declaration of this name in its file.  Where paths and names have no colon every such
type does. -/
theorem resolve_selfLink (table : ExtensionTable) (files : List SourceFile)
    (ids : (ds.map Declaration.id).Nodup) (base : kind = .inheritance ∨ kind = .implementation) :
    (∀ l ∈ resolve table ds files, l.kind = kind → l.source = l.target →
      ∃ d ∈ ds, l.source = d.id ∧ IsItsOwnBase ds kind d) ∧
    ((∀ d ∈ ds, d.Plain) → ∀ d ∈ ds, IsItsOwnBase ds kind d →
      ∃ l ∈ resolve table ds files, l.kind = kind ∧ l.source = d.id ∧ l.target = d.id) := by
  constructor
  · rintro l hl rfl same
    have found := mem_of_mem_withoutRepeats _ hl
    obtain ⟨d, hd, -, -, source, -⟩ := ends_of_mem_allLinks found
    have ends : l.ends = (l.kind, d.id, d.id) := by rw [Link.ends, ← same, source]
    refine ⟨d, hd, source, (mem_ends_inheritanceLinks_own_iff ids hd).1 ?_⟩
    rw [← ends]
    exact List.mem_map_of_mem (mem_inheritanceLinks_of_kind found base)
  · intro plain d hd own
    obtain ⟨l, hl, ends⟩ := List.mem_map.1 ((mem_ends_inheritanceLinks_own_iff ids hd).2 own)
    have known : l ∈ allLinks table ds files := mem_allLinks.2 (Or.inr (Or.inl hl))
    obtain ⟨l', hl', same⟩ := List.mem_map.1
      ((mem_ends_resolve plain _).2 (List.mem_map_of_mem (f := Link.ends) known))
    obtain ⟨kinds, same⟩ := Prod.mk.inj (same.trans ends)
    obtain ⟨source, target⟩ := Prod.mk.inj same
    exact ⟨l', hl', kinds, source, target⟩

/-- The class `Config` of a file, which extends one of the same name. -/
def ownConfig : Declaration :=
  ⟨"Config", .classType, .python, "app.py", ⟨⟨3, 0⟩, ⟨4, 8⟩⟩, { base := some "Config" }, none⟩

/-- The class `Config` that is meant. -/
def baseConfig : Declaration :=
  ⟨"Config", .classType, .python, "base.py", ⟨⟨1, 0⟩, ⟨2, 8⟩⟩, {}, none⟩

/-- The file that imports the class that is meant. -/
def configFile : SourceFile :=
  ⟨"app.py", "from base import Config\n\nclass Config(Config):\n    pass\n"⟩

/-- The class is linked with itself. -/
theorem resolve_selfLink_config :
    ([ownConfig, baseConfig].map Declaration.id).Nodup ∧
      IsItsOwnBase [ownConfig, baseConfig] .inheritance ownConfig ∧
      ∃ l ∈ resolve .standard [ownConfig, baseConfig] [configFile],
        l.kind = .inheritance ∧ l.source = ownConfig.id ∧ l.target = ownConfig.id := by
  have ids : ([ownConfig, baseConfig].map Declaration.id).Nodup := by decide +kernel
  have own : IsItsOwnBase [ownConfig, baseConfig] .inheritance ownConfig :=
    ⟨rfl, by decide, [], [baseConfig], rfl, ⟨rfl, rfl⟩, by simp⟩
  have links := (resolve_selfLink .standard [configFile] ids (Or.inl rfl)).2
  exact ⟨ids, own, links (by decide) ownConfig (by simp) own⟩

/-- The class inherits from itself, although the class of its name that is meant is in the batch. -/
theorem exists_selfLink_config :
    ([ownConfig, baseConfig].map Declaration.id).Nodup ∧ baseConfig.name = ownConfig.name ∧
      baseConfig.path ≠ ownConfig.path ∧ baseConfig.kind.isType = true ∧
      ∃ l ∈ resolve .standard [ownConfig, baseConfig] [configFile],
        l.kind = .inheritance ∧ l.source = l.target := by
  decide +kernel

end CodeGraph
