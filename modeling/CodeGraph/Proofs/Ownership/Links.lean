import CodeGraph.Proofs.Link.Passes

/-!
# The links of ownership

If every id occurs once, methods alone have owners, and the owners are there and plain, then the
ownership links of a batch are those from the owners to the methods, one for each method
(`ownership_resolve`): no other pass gives such a link, and none is lost as a repeat.
-/

namespace CodeGraph

variable {table : ExtensionTable} {ds : List Declaration} {files : List SourceFile} {l : Link}

/-- The links of a kind. -/
def linksOf (kind : LinkKind) (links : List Link) : List Link := links.filter fun l => l.kind = kind

/-- The links of the passes after the first one. -/
def furtherLinks (table : ExtensionTable) (ds : List Declaration) (files : List SourceFile) :
    List Link :=
  inheritanceLinks ds ++ importLinks table ds files ++ callLinks ds files

theorem allLinks_eq_append (table : ExtensionTable) (ds : List Declaration)
    (files : List SourceFile) :
    allLinks table ds files = ownershipLinks ds ++ furtherLinks table ds files := by
  simp only [allLinks, furtherLinks, List.append_assoc]

theorem kind_of_mem_furtherLinks (h : l ∈ furtherLinks table ds files) : l.kind ≠ .ownership := by
  rcases List.mem_append.1 h with h | h
  · rcases List.mem_append.1 h with h | h
    · rcases kind_of_mem_inheritanceLinks h with kind | kind <;> simp [kind]
    · simp [kind_of_mem_importLinks h]
  · simp [kind_of_mem_callLinks h]

/-- The ownership links that are left when repeats are dropped are those of the first pass. -/
theorem linksOf_ownership_resolve (table : ExtensionTable) (ds : List Declaration)
    (files : List SourceFile) :
    linksOf .ownership (resolve table ds files) = withoutRepeats Link.id (ownershipLinks ds) := by
  unfold linksOf
  rw [resolve, allLinks_eq_append, withoutRepeats_append, List.filter_append]
  have own : (withoutRepeats Link.id (ownershipLinks ds)).filter (fun l => l.kind = .ownership) =
      withoutRepeats Link.id (ownershipLinks ds) := by
    refine List.filter_eq_self.2 fun l hl => ?_
    exact decide_eq_true (kind_of_mem_ownershipLinks (mem_of_mem_withoutRepeats _ hl))
  have others : (freshItems Link.id ((ownershipLinks ds).map Link.id)
      (furtherLinks table ds files)).filter (fun l => l.kind = .ownership) = [] := by
    refine List.filter_eq_nil_iff.2 fun l hl => ?_
    have := kind_of_mem_furtherLinks ((freshItems_sublist Link.id _ _).subset hl)
    simpa using this
  rw [own, others, List.append_nil]

theorem target_ownershipLinks_sublist (ds : List Declaration) :
    ((ownershipLinks ds).map Link.target).Sublist (ds.map Declaration.id) := by
  have pass (all ds : List Declaration) :
      ((ds.filterMap (ownershipLink? all)).map Link.target).Sublist (ds.map Declaration.id) := by
    induction ds with
    | nil => exact List.Sublist.slnil
    | cons d ds ih =>
      rw [List.filterMap_cons, List.map_cons]
      cases hl : ownershipLink? all d with
      | none => exact ih.cons _
      | some l =>
        obtain ⟨t, -, -, rfl⟩ := ownershipLink?_eq_some_iff.1 hl
        exact ih.cons_cons _
  exact pass ds ds

/-- In a batch of plain declarations with ids of their own no two ownership links share an id. -/
theorem nodup_id_ownershipLinks (unique : (ds.map Declaration.id).Nodup)
    (plain : ∀ d ∈ ds, d.Plain) : ((ownershipLinks ds).map Link.id).Nodup := by
  have targets : ((ownershipLinks ds).map Link.target).Nodup :=
    unique.sublist (target_ownershipLinks_sublist ds)
  refine List.Nodup.map_on (fun l hl l' hl' same => ?_) (targets.of_map _)
  refine List.inj_on_of_nodup_map targets hl hl' ?_
  obtain ⟨d, -, t, ht, -, rfl⟩ := mem_ownershipLinks.1 hl
  obtain ⟨d', -, t', ht', -, rfl⟩ := mem_ownershipLinks.1 hl'
  exact (linkId_inj (plain t ht) (plain t' ht') same).2.2

/-- If methods alone have owners, and their owners are there, every method has its link. -/
theorem ends_ownershipLinks (kind : ∀ d ∈ ds, d.owner.isSome ↔ d.kind = .method)
    (owner : ∀ d ∈ ds, ∀ id, d.owner = some id → ∃ t ∈ ds, t.id = id) :
    (ownershipLinks ds).map (fun l => (some l.source, l.target)) =
      (ds.filter fun d => d.kind = .method).map fun d => (d.owner, d.id) := by
  have pass : ∀ part : List Declaration, (∀ d ∈ part, d ∈ ds) →
      (part.filterMap (ownershipLink? ds)).map (fun l => (some l.source, l.target)) =
        (part.filter fun d => d.kind = .method).map fun d => (d.owner, d.id) := by
    intro part hpart
    induction part with
    | nil => rfl
    | cons d part ih =>
      have hd := hpart d List.mem_cons_self
      have rest := ih fun e he => hpart e (List.mem_cons_of_mem _ he)
      rw [List.filterMap_cons, List.filter_cons]
      by_cases method : d.kind = .method
      · obtain ⟨id, hid⟩ := Option.isSome_iff_exists.1 ((kind d hd).2 method)
        obtain ⟨t, ht, rfl⟩ := owner d hd id hid
        have link : ownershipLink? ds d = some (memberLink t.id d) :=
          ownershipLink?_eq_some_iff.2 ⟨t, ht, hid, rfl⟩
        rw [link, if_pos (decide_eq_true method), List.map_cons, List.map_cons, rest, hid]
        rfl
      · have free : d.owner = none := by
          rw [← Option.not_isSome_iff_eq_none]
          exact fun h => method ((kind d hd).1 h)
        have none : ownershipLink? ds d = none := by
          rw [ownershipLink?, free]
          rfl
        rw [none, if_neg (by simpa using method)]
        exact rest
  exact pass ds fun _ h => h

/-- There is one ownership link for each method, from its owner to it, and no other. -/
theorem ownership_resolve (files : List SourceFile) (unique : (ds.map Declaration.id).Nodup)
    (kind : ∀ d ∈ ds, d.owner.isSome ↔ d.kind = .method)
    (owner : ∀ d ∈ ds, ∀ id, d.owner = some id → ∃ t ∈ ds, t.id = id)
    (plain : ∀ d ∈ ds, d.Plain) :
    (linksOf .ownership (resolve table ds files)).map (fun l => (some l.source, l.target)) =
      (ds.filter fun d => d.kind = .method).map fun d => (d.owner, d.id) := by
  rw [linksOf_ownership_resolve, withoutRepeats_eq_self _ (nodup_id_ownershipLinks unique plain)]
  exact ends_ownershipLinks kind owner

end CodeGraph
