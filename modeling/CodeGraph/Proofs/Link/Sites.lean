import CodeGraph.Proofs.Import.Lines
import CodeGraph.Proofs.Link.Calls

/-!
# Where links are shown

A link is shown in a file of its anchor: the member of an owner, or the declaration that the link
leads from.  There its site is a place of the text (`site_of_mem_allLinks`).  Its column counts
characters where the link was found by searching the text, and bytes where it stands at the start of
a declaration.
-/

namespace CodeGraph

open CodeGraph.Text

variable {ds : List Declaration} {files : List SourceFile} {l : Link}

/-- What the columns in links of a kind count. -/
def LinkKind.width : LinkKind → List Char → Nat
  | call => List.length
  | importing => List.length
  | ownership => Position.byteWidth
  | inheritance => Position.byteWidth
  | implementation => Position.byteWidth

theorem LinkKind.width_eq (kind : LinkKind) :
    kind.width = List.length ∨ kind.width = Position.byteWidth := by
  cases kind with
  | call => exact Or.inl rfl
  | importing => exact Or.inl rfl
  | _ => exact Or.inr rfl

/-- The id of the declaration in whose file a link is shown. -/
def Link.anchor (l : Link) : String := if l.kind = .ownership then l.target else l.source

/-- The declaration starts at a place of the text. -/
def Declaration.StartsIn (d : Declaration) (text : List Char) : Prop :=
  ∃ before after, text = before ++ after ∧
    d.span.start = positionOf (Utf8.encode text) (Utf8.encode before).length

theorem Declaration.StartsIn.liesIn {d : Declaration} {text : List Char} (h : d.StartsIn text) :
    d.span.start.LiesIn Position.byteWidth (cutAt '\n' text) := by
  obtain ⟨before, after, rfl, start⟩ := h
  rw [start]
  exact liesIn_positionOf before after

/-- The site of the link is a place of the text. -/
def Link.ShownIn (l : Link) (text : List Char) : Prop :=
  ∃ p, l.site = some p ∧ p.LiesIn l.kind.width (cutAt '\n' text)

/-- Where characters are counted, or each is one byte, the site has no column behind its line. -/
theorem Link.ShownIn.isIn {text : List Char} {p : Position} (h : l.ShownIn text)
    (here : l.site = some p)
    (plain : l.kind = .call ∨ l.kind = .importing ∨ ∀ c ∈ text, c.toNat < 0x80) :
    p.IsIn (cutAt '\n' text) := by
  obtain ⟨q, site, lies⟩ := h
  obtain rfl := Option.some.inj (here.symm.trans site)
  apply Position.LiesIn.isIn
  rcases plain with call | importing | ascii
  · rwa [call] at lies
  · rwa [importing] at lies
  · rcases l.kind.width_eq with width | width <;> rw [width] at lies
    · exact lies
    · exact lies.characters fun line mem c hc => ascii c (mem_of_mem_cutAt hc mem)

theorem site_of_mem_inheritanceLinks (h : l ∈ inheritanceLinks ds) :
    ∃ d ∈ ds, l.source = d.id ∧ l.site = some d.span.start ∧
      (l.kind = .inheritance ∨ l.kind = .implementation) := by
  obtain ⟨d, hd, h⟩ := List.mem_flatMap.1 h
  unfold inheritanceLinksOf at h
  obtain ⟨-, h⟩ := List.mem_ite_nil_right.1 h
  refine ⟨d, hd, ?_⟩
  rcases List.mem_append.1 h with h | h
  · obtain ⟨base, -, h⟩ := List.mem_filterMap.1 h
    obtain ⟨t, -, rfl⟩ := Option.map_eq_some_iff.1 h
    exact ⟨rfl, rfl, Or.inl rfl⟩
  · obtain ⟨base, -, h⟩ := List.mem_filterMap.1 h
    obtain ⟨t, -, rfl⟩ := Option.map_eq_some_iff.1 h
    exact ⟨rfl, rfl, Or.inr rfl⟩

/-- A line of a text begins at a place of it. -/
theorem liesIn_line {width : List Char → Nat} (empty : width [] = 0) {lines : List (List Char)}
    {n : Nat} (h : 1 ≤ n ∧ n ≤ lines.length) : Position.LiesIn width ⟨n, 0⟩ lines := by
  have bound : n - 1 < lines.length := by omega
  refine ⟨n - 1, lines[n - 1], [], List.getElem?_eq_getElem bound, List.nil_prefix, ?_⟩
  rw [empty]
  congr 1
  omega

namespace CallSite

variable {caller : Declaration} {name : String} (site : CallSite ds files caller name)

theorem shownIn : site.link.ShownIn site.file.content.toList := by
  obtain ⟨p, front, rest, here, -, -, -, place, -⟩ := site.shownBy_link.position
  refine ⟨p, here, ?_⟩
  rw [place]
  exact liesIn_positionIn _ _

end CallSite

/-- If the declarations start in files of their paths, every link is shown in a file of its
anchor. -/
theorem site_of_mem_allLinks {table : ExtensionTable}
    (starts : ∀ d ∈ ds, ∃ file ∈ files, file.path = d.path ∧ d.StartsIn file.content.toList)
    (h : l ∈ allLinks table ds files) :
    ∃ d ∈ ds, d.id = l.anchor ∧
      ∃ file ∈ files, file.path = d.path ∧ l.ShownIn file.content.toList := by
  rcases mem_allLinks.1 h with h | h | h | h
  · obtain ⟨d, hd, t, -, -, rfl⟩ := mem_ownershipLinks.1 h
    obtain ⟨file, hfile, path, start⟩ := starts d hd
    exact ⟨d, hd, rfl, file, hfile, path, _, rfl, start.liesIn⟩
  · obtain ⟨d, hd, source, site, kind⟩ := site_of_mem_inheritanceLinks h
    obtain ⟨file, hfile, path, start⟩ := starts d hd
    have other : l.kind ≠ .ownership := by
      rintro same
      rw [same] at kind
      simp at kind
    have width : l.kind.width = Position.byteWidth := by
      rcases kind with kind | kind <;> rw [kind] <;> rfl
    refine ⟨d, hd, ?_, file, hfile, path, _, site, ?_⟩
    · rw [Link.anchor, if_neg other, source]
    · rw [width]
      exact start.liesIn
  · obtain ⟨file, hfile, d, hd, t, -, kind, source, -, path, statement, mem, site, -⟩ :=
      mem_importLinks h
    refine ⟨d, hd, ?_, file, hfile, path.symm, _, site, ?_⟩
    · rw [Link.anchor, kind, source]
      rfl
    · rw [kind]
      exact liesIn_line rfl (Import.line_of_mem_scan mem)
  · obtain ⟨caller, hcaller, name, site, rfl⟩ := exists_callSite h
    exact ⟨caller, hcaller, rfl, site.file, site.file_mem, site.path, site.shownIn⟩

end CodeGraph
