import CodeGraph.Proofs.Link.Passes

/-!
# Links are well formed

Every link that `resolve` gives leads from a declaration of the batch to another one and has a
reason there, of its kind (`Link.Justified`); its id and confidence follow from its kind and its
ends, and no id occurs twice (`resolve_wellFormed`).
-/

namespace CodeGraph

/-- The reason for a link from one declaration to another. -/
inductive Link.Justified (table : ExtensionTable) (files : List SourceFile)
    (source target : Declaration) (l : Link) : Prop where
  /-- The source owns the target. -/
  | ownership (kind : l.kind = .ownership) (owner : target.owner = some source.id)
  /-- The source is a type that extends one with the name of the target. -/
  | inheritance (kind : l.kind = .inheritance) (isType : source.kind.isType = true)
      (base : source.traits.base = some target.name)
  /-- The source is a type that implements one with the name of the target. -/
  | implementation (kind : l.kind = .implementation) (isType : source.kind.isType = true)
      (listed : target.name ∈ source.traits.interfaces)
  /-- A statement of the source's file, on the line that the link shows, imports the name of the
  target. -/
  | importing (kind : l.kind = .importing) {file : SourceFile} (given : file ∈ files)
      (path : source.path = file.path) {statement : Import.Statement}
      (scanned : statement ∈ Import.scan (table.language file.path) file.content.toList)
      (shown : l.site = some ⟨statement.line, 0⟩) (name : target.name ∈ statement.names)
  /-- The source is a function or method other than the target. -/
  | call (kind : l.kind = .call) (callable : source.kind.isCallable = true)
      (differs : source.id ≠ target.id)

/-- A link between declarations of a batch that has a reason, and the id and confidence that its
kind and its ends give. -/
structure Link.WellFormed (table : ExtensionTable) (ds : List Declaration)
    (files : List SourceFile) (l : Link) : Prop where
  justified : ∃ source ∈ ds, ∃ target ∈ ds, source.id = l.source ∧ target.id = l.target ∧
    l.Justified table files source target
  reported : ∃ members, l.report = .object members ∧
    Json.find? "id" members = some (.text (linkId l.kind l.source l.target)) ∧
    Json.find? "confidence" members = some (.number (.ofDecimal false l.kind.confidence (-1)))

variable {table : ExtensionTable} {ds : List Declaration} {files : List SourceFile} {l : Link}

/-- The report shows the id and the confidence whatever else the link says. -/
theorem Link.WellFormed.of_justified {source target : Declaration} (hs : source ∈ ds)
    (ht : target ∈ ds) (hsource : l.source = source.id) (htarget : l.target = target.id)
    (h : l.Justified table files source target) : l.WellFormed table ds files where
  justified := ⟨source, hs, target, ht, hsource.symm, htarget.symm, h⟩
  reported := ⟨_, rfl, rfl, rfl⟩

theorem wellFormed_of_mem_ownershipLinks (h : l ∈ ownershipLinks ds) :
    l.WellFormed table ds files := by
  obtain ⟨d, hd, t, ht, owner, rfl⟩ := mem_ownershipLinks.1 h
  exact .of_justified ht hd rfl rfl (.ownership rfl owner)

theorem wellFormed_of_mem_inheritanceLinks (h : l ∈ inheritanceLinks ds) :
    l.WellFormed table ds files := by
  obtain ⟨d, hd, t, ht, isType, source, target, reason⟩ := mem_inheritanceLinks h
  refine .of_justified hd ht source target ?_
  rcases reason with ⟨kind, base⟩ | ⟨kind, listed⟩
  · exact .inheritance kind isType base
  · exact .implementation kind isType listed

theorem wellFormed_of_mem_importLinks (h : l ∈ importLinks table ds files) :
    l.WellFormed table ds files := by
  obtain ⟨file, given, d, hd, t, ht, kind, source, target, path, statement, scanned, shown, name⟩ :=
    mem_importLinks h
  exact .of_justified hd ht source target (.importing kind given path scanned shown name)

theorem wellFormed_of_mem_callLinks (h : l ∈ callLinks ds files) : l.WellFormed table ds files := by
  obtain ⟨d, hd, t, ht, kind, source, target, callable, differs⟩ := mem_callLinks h
  refine .of_justified hd ht source target (.call kind callable ?_)
  rwa [source, target] at differs

/-- No id occurs twice, and every link is well formed. -/
theorem resolve_wellFormed (table : ExtensionTable) (ds : List Declaration)
    (files : List SourceFile) :
    ((resolve table ds files).map Link.id).Nodup ∧
      ∀ l ∈ resolve table ds files, l.WellFormed table ds files := by
  refine ⟨nodup_map_withoutRepeats Link.id _, fun l hl => ?_⟩
  rcases mem_allLinks.1 (mem_of_mem_withoutRepeats Link.id hl) with owned | based | imported | called
  · exact wellFormed_of_mem_ownershipLinks owned
  · exact wellFormed_of_mem_inheritanceLinks based
  · exact wellFormed_of_mem_importLinks imported
  · exact wellFormed_of_mem_callLinks called

end CodeGraph
