import CodeGraph.Proofs.Ownership.Survey

/-!
# Displaced owners

An id says path, line and name, and of the declarations with one id the first is kept.  So a type
can be displaced by a declaration that was sighted before it, and its members are then left with an
owner that need not own them.  `run_membersOwned_iff` says when every member in the result of a
survey is still owned: when all that displaces an owner is a type of the file that is long enough.
-/

namespace CodeGraph

/-- Every member is owned by a declaration of the list that has the id of its owner. -/
def MembersOwned (ds : List Declaration) : Prop :=
  ∀ d ∈ ds, ∀ owner ∈ d.owner, ∃ t ∈ ds, t.id = owner ∧ Owns t d

/-- Where a declaration displaces the owner of a member it is a type, of the same file, and ends
no earlier than the member. -/
def DisplacedWell (sightings ds : List Declaration) : Prop :=
  ∀ t ∈ sightings, ∀ d ∈ ds, d.owner = some t.id → Owns t d →
    ∀ c ∈ sightings.find? (fun e => e.id = t.id), c ≠ t →
      c.kind.isType = true ∧ c.path = d.path ∧ d.span.stop.line ≤ c.span.stop.line

instance (t d : Declaration) : Decidable (Owns t d) :=
  decidable_of_iff (t.kind.isType = true ∧ t.path = d.path ∧
      t.span.start.line ≤ d.span.start.line ∧ d.span.stop.line ≤ t.span.stop.line)
    ⟨fun h => ⟨h.1, h.2.1, h.2.2⟩, fun h => ⟨h.isType, h.path, h.lines⟩⟩

instance (ds : List Declaration) : Decidable (MembersOwned ds) :=
  inferInstanceAs (Decidable (∀ d ∈ ds, ∀ owner ∈ d.owner, ∃ t ∈ ds, t.id = owner ∧ Owns t d))

instance (sightings ds : List Declaration) : Decidable (DisplacedWell sightings ds) :=
  inferInstanceAs (Decidable (∀ t ∈ sightings, ∀ d ∈ ds, d.owner = some t.id → Owns t d →
    ∀ c ∈ sightings.find? (fun e => e.id = t.id), c ≠ t →
      c.kind.isType = true ∧ c.path = d.path ∧ d.span.stop.line ≤ c.span.stop.line))

variable {P : Declaration → Prop} {ds : List Declaration}

/-- The first declaration of an id is the one that is kept. -/
theorem mem_distinctDeclarations_of_find? {id : String} {c : Declaration}
    (h : ds.find? (fun e => e.id = id) = some c) : c ∈ distinctDeclarations ds ∧ c.id = id := by
  refine ⟨?_, by simpa using List.find?_some h⟩
  rw [← find?_withoutRepeats] at h
  exact List.mem_of_find?_eq_some h

/-- A type with the id and the file of an owner starts on its line. -/
theorem Owns.of_displaced {t c d : Declaration} (h : Owns t d) (id : c.id = t.id)
    (isType : c.kind.isType = true) (path : c.path = d.path)
    (stop : d.span.stop.line ≤ c.span.stop.line) : Owns c d := by
  have start : c.span.start.line = t.span.start.line := by
    rw [Declaration.id, Declaration.id, path, h.path] at id
    exact (declarationId_inj_left id).1
  exact ⟨isType, path, start ▸ h.lines.1, stop⟩

theorem membersOwned_distinctDeclarations_iff (h : OwnersFirst P Owns ds) :
    MembersOwned (distinctDeclarations ds) ↔ DisplacedWell ds (distinctDeclarations ds) := by
  constructor
  · intro owned t _ d hd howner _ c hc _
    obtain ⟨kept, hkept, hid, owns⟩ := owned d hd t.id howner
    obtain ⟨hcmem, hcid⟩ := mem_distinctDeclarations_of_find? hc
    have same : kept = c :=
      eq_of_mem_withoutRepeats Declaration.id hkept hcmem (hid.trans hcid.symm)
    subst same
    exact ⟨owns.isType, owns.path, owns.lines.2⟩
  · intro well d hd owner howner
    obtain ⟨t, ht, rfl, owns⟩ := h.exists_owner (mem_of_mem_withoutRepeats Declaration.id hd) howner
    have found : (ds.find? fun e => e.id = t.id).isSome := List.find?_isSome.2 ⟨t, ht, by simp⟩
    obtain ⟨c, hc⟩ := Option.isSome_iff_exists.1 found
    obtain ⟨hcmem, hcid⟩ := mem_distinctDeclarations_of_find? hc
    refine ⟨c, hcmem, hcid, ?_⟩
    by_cases same : c = t
    · rwa [same]
    · obtain ⟨isType, path, stop⟩ := well t ht d hd howner owns c hc same
      exact owns.of_displaced hcid isType path stop

namespace Surveyor

variable {s : Surveyor}

/-- In the result of a completed survey of nested trees every member is owned by the declaration
with the id of its owner exactly if owners are displaced well. -/
theorem run_membersOwned_iff (standard : s.readers = .standard) (nested : s.tools.GivesNested)
    {signal : Option Signal} {store : GrammarStore} {files : List SourceFile} {r : SurveyResult}
    (ok : (s.run signal store files).result = .ok r) :
    MembersOwned r.declarations ↔
      DisplacedWell (files.flatMap (s.sightings (store.lack? s.tools.loaders)))
        r.declarations := by
  obtain ⟨-, rfl⟩ := run_eq_ok ok
  have first := (ownersFirst_flatMap_sightings (s := s) (store.lack? s.tools.loaders) files).mono
    (fun _ h => h) fun _ _ owns => owns nested
  have iff := membersOwned_distinctDeclarations_iff first
  rwa [← declarationsOf_outcomes standard] at iff

theorem nested_shadowedTree : shadowedTree.Nested := by
  simp [shadowedTree, Tree.label]

theorem givesNested_seeing {root : Tree} (h : root.Nested) : (seeing root).tools.GivesNested := by
  rintro grammar content tree hasError answered
  cases answered
  exact h

/-- The same tree over a function of another name: the class is not displaced. -/
theorem run_membersOwned_apart :
    ∃ r, ((seeing shadowedTree).run none .empty
        [⟨"f.js", "function B()\x7bclass A\x7bm()\x7b\x7d\x7d\x7d"⟩]).result = .ok r ∧
      r.declarations.map (fun d => (d.id, d.owner)) =
        [("f.js:1:B", none), ("f.js:1:A", none), ("f.js:1:m", some "f.js:1:A")] ∧
      MembersOwned r.declarations := by
  obtain ⟨r, ok⟩ := run_none (s := seeing shadowedTree) rfl .empty
    [⟨"f.js", "function B()\x7bclass A\x7bm()\x7b\x7d\x7d\x7d"⟩]
  have iff := run_membersOwned_iff rfl (givesNested_seeing nested_shadowedTree) ok
  obtain ⟨-, rfl⟩ := run_eq_ok ok
  exact ⟨_, ok, by decide +kernel, iff.2 (by decide +kernel)⟩

/-- The owner of the method is a function: it has displaced the class. -/
theorem not_membersOwned_shadowed :
    shadowedTree.Nested ∧
      ∃ r, ((seeing shadowedTree).run none .empty [shadowed]).result = .ok r ∧
        ¬ MembersOwned r.declarations := by
  obtain ⟨r, ok⟩ := run_none (s := seeing shadowedTree) rfl .empty [shadowed]
  obtain ⟨-, rfl⟩ := run_eq_ok ok
  exact ⟨nested_shadowedTree, _, ok, by decide +kernel⟩

end Surveyor

end CodeGraph
