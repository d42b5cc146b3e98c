import CodeGraph.Proofs.Link.Passes
import Mathlib.Data.Set.Function

/-!
# Only true repeats are dropped

Where paths and names have no colon, two declarations share an id exactly if they share path, line
and name (`id_eq_iff_parts_eq`), and two links between such declarations exactly if they share kind
and ends (`linkId_injOn`).  So what is dropped as a repeat of an id repeats all that matters:
`distinctDeclarations` keeps the first declaration of every path, line and name, and `resolve` the
first link of every kind between two ends (`dropped_only_if_repeated`).
-/

namespace CodeGraph

/-- What the id of a declaration is made of. -/
def Declaration.parts (d : Declaration) : String × Int × String :=
  (d.path, d.span.start.line, d.name)

/-- What the id of a link is made of. -/
def Link.ends (l : Link) : LinkKind × String × String := (l.kind, l.source, l.target)

/-- Paths, lines and names without a colon. -/
def plainParts : Set (String × Int × String) := {p | ':' ∉ p.1.toList ∧ ':' ∉ p.2.2.toList}

/-- The ids of plain declarations. -/
def plainIds : Set String := {id | ∃ d : Declaration, d.Plain ∧ d.id = id}

/-! ## Ids -/

theorem Declaration.id_eq (d : Declaration) :
    d.id = declarationId d.parts.1 d.parts.2.1 d.parts.2.2 := rfl

theorem Link.id_eq (l : Link) : l.id = linkId l.ends.1 l.ends.2.1 l.ends.2.2 := rfl

theorem declarationId_injOn :
    Set.InjOn (fun p : String × Int × String => declarationId p.1 p.2.1 p.2.2) plainParts := by
  intro p hp q hq same
  obtain ⟨path, line, name⟩ := declarationId_inj hp.1 hq.1 same
  exact Prod.ext path (Prod.ext line name)

theorem linkId_injOn :
    Set.InjOn (fun e : LinkKind × String × String => linkId e.1 e.2.1 e.2.2)
      {e | e.2.1 ∈ plainIds ∧ e.2.2 ∈ plainIds} := by
  rintro ⟨kind, source, target⟩ ⟨⟨s, hs, rfl⟩, -⟩ ⟨kind', source', target'⟩ ⟨⟨s', hs', rfl⟩, -⟩ same
  obtain ⟨rfl, sources, rfl⟩ := linkId_inj hs hs' same
  exact Prod.ext rfl (Prod.ext sources rfl)

/-- In one file the id tells all lines and names apart. -/
theorem declarationId_injective (path : String) :
    Function.Injective fun p : Int × String => declarationId path p.1 p.2 := by
  intro p q same
  obtain ⟨line, name⟩ := declarationId_inj_left same
  exact Prod.ext line name

theorem id_eq_iff_parts_eq {d e : Declaration} (hd : d.Plain) (he : e.Plain) :
    d.id = e.id ↔ d.parts = e.parts := by
  constructor
  · intro same
    exact declarationId_injOn ⟨hd.path, hd.name⟩ ⟨he.path, he.name⟩ same
  · intro same
    rw [Declaration.id_eq, Declaration.id_eq, same]

/-! ## Batches -/

variable {table : ExtensionTable} {ds : List Declaration} {files : List SourceFile}

theorem distinctDeclarations_eq_firstOnes (plain : ∀ d ∈ ds, d.Plain) :
    distinctDeclarations ds = firstOnes Declaration.parts ds := by
  rw [← withoutRepeats_eq_firstOnes]
  exact withoutRepeats_congr fun d hd e he => id_eq_iff_parts_eq (plain d hd) (plain e he)

theorem id_eq_iff_ends_eq (plain : ∀ d ∈ ds, d.Plain) {l l' : Link}
    (hl : l ∈ allLinks table ds files) (hl' : l' ∈ allLinks table ds files) :
    l.id = l'.id ↔ l.ends = l'.ends := by
  have ends {l : Link} (h : l ∈ allLinks table ds files) :
      l.source ∈ plainIds ∧ l.target ∈ plainIds := by
    obtain ⟨s, hs, t, ht, source, target⟩ := ends_of_mem_allLinks h
    exact ⟨⟨s, plain s hs, source.symm⟩, ⟨t, plain t ht, target.symm⟩⟩
  constructor
  · intro same
    exact linkId_injOn (ends hl) (ends hl') same
  · intro same
    rw [Link.id_eq, Link.id_eq, same]

theorem resolve_eq_firstOnes (plain : ∀ d ∈ ds, d.Plain) :
    resolve table ds files = firstOnes Link.ends (allLinks table ds files) := by
  rw [← withoutRepeats_eq_firstOnes]
  exact withoutRepeats_congr fun l hl l' hl' => id_eq_iff_ends_eq plain hl hl'

/-- No kind of link between two ends is lost. -/
theorem mem_ends_resolve (plain : ∀ d ∈ ds, d.Plain) (e : LinkKind × String × String) :
    e ∈ (resolve table ds files).map Link.ends ↔ e ∈ (allLinks table ds files).map Link.ends := by
  rw [resolve_eq_firstOnes plain, ← withoutRepeats_eq_firstOnes]
  exact mem_map_withoutRepeats Link.ends _ e

/-- Ids that have no colon but those between their parts give the parts back; in one file all ids
do.  So a declaration of a plain batch is dropped only if an earlier one has its path, line and
name, and of the links that the four passes find the first one of every kind between two ends
stays. -/
theorem dropped_only_if_repeated (table : ExtensionTable) (files : List SourceFile)
    (plain : ∀ d ∈ ds, d.Plain) :
    Set.InjOn (fun p : String × Int × String => declarationId p.1 p.2.1 p.2.2) plainParts ∧
      Set.InjOn (fun e : LinkKind × String × String => linkId e.1 e.2.1 e.2.2)
        {e | e.2.1 ∈ plainIds ∧ e.2.2 ∈ plainIds} ∧
      (∀ path, Function.Injective fun p : Int × String => declarationId path p.1 p.2) ∧
      distinctDeclarations ds = firstOnes Declaration.parts ds ∧
      resolve table ds files = firstOnes Link.ends
        (ownershipLinks ds ++ inheritanceLinks ds ++ importLinks table ds files ++
          callLinks ds files) ∧
      ∀ e, e ∈ (resolve table ds files).map Link.ends ↔
        e ∈ (ownershipLinks ds).map Link.ends ∨ e ∈ (inheritanceLinks ds).map Link.ends ∨
          e ∈ (importLinks table ds files).map Link.ends ∨
          e ∈ (callLinks ds files).map Link.ends := by
  refine ⟨declarationId_injOn, linkId_injOn, declarationId_injective,
    distinctDeclarations_eq_firstOnes plain, resolve_eq_firstOnes plain, fun e => ?_⟩
  rw [mem_ends_resolve plain]
  simp only [allLinks, List.map_append, List.mem_append, or_assoc]

/-- A function and a class of one name on one line, and a member that is theirs by its owner's
id. -/
def namesakes : List Declaration :=
  let row (line : Int) : Span := ⟨⟨line, 0⟩, ⟨line, 9⟩⟩
  [⟨"A", .function, .javascript, "f.js", row 1, {}, none⟩,
    ⟨"A", .classType, .javascript, "f.js", row 1, {}, none⟩,
    ⟨"m", .method, .javascript, "f.js", row 2, {}, some "f.js:1:A"⟩]

/-- The class is dropped; the link to its member is not. -/
theorem dropped_only_if_repeated_namesakes :
    (∀ d ∈ namesakes, d.Plain) ∧
      distinctDeclarations namesakes = firstOnes Declaration.parts namesakes ∧
      (firstOnes Declaration.parts namesakes).map Declaration.kind = [.function, .method] ∧
      (LinkKind.ownership, "f.js:1:A", "f.js:2:m") ∈
        (resolve .standard namesakes []).map Link.ends := by
  have plain : ∀ d ∈ namesakes, d.Plain := by decide
  obtain ⟨-, -, -, declarations, -, links⟩ := dropped_only_if_repeated .standard [] plain
  refine ⟨plain, declarations, by decide +kernel, (links _).2 (Or.inl ?_)⟩
  decide +kernel

end CodeGraph
