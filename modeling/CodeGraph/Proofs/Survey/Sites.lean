import CodeGraph.Proofs.Link.Sites
import CodeGraph.Proofs.Survey.Paths

/-!
# Sites in the links of a survey

If the nodes of all trees start and end between characters, every declaration starts at a place of
the text of its file, and so every link of a survey is shown at a place of that text (`run_sites`).
-/

namespace CodeGraph

open CodeGraph.Text

/-- The offset stands between the bytes of two characters of the text, or at an end of it. -/
def IsBorder (text : List Char) (offset : Nat) : Prop :=
  ∃ k ≤ text.length, (Utf8.encode (text.take k)).length = offset

instance (text : List Char) (offset : Nat) : Decidable (IsBorder text offset) :=
  decidable_of_iff
    ((List.range (text.length + 1)).any fun k => (Utf8.encode (text.take k)).length = offset) <| by
      simp only [IsBorder, List.any_eq_true, List.mem_range, Nat.lt_add_one_iff, decide_eq_true_eq]

/-- All nodes start and end between characters of the text. -/
inductive Tree.OnBorders (text : List Char) : Tree → Prop where
  | node {label : Label} {children : List Tree} (start : IsBorder text label.start)
      (stop : IsBorder text label.stop) (inside : ∀ c ∈ children, c.OnBorders text) :
      Tree.OnBorders text (.node label children)

@[simp]
theorem Tree.onBorders_node_iff {text : List Char} {label : Label} {children : List Tree} :
    (Tree.node label children).OnBorders text ↔
      IsBorder text label.start ∧ IsBorder text label.stop ∧ ∀ c ∈ children, c.OnBorders text :=
  ⟨fun h => by cases h with | node start stop inside => exact ⟨start, stop, inside⟩,
    fun h => .node h.1 h.2.1 h.2.2⟩

namespace Tree.OnBorders

variable {text : List Char} {t c : Tree}

theorem start (h : t.OnBorders text) : IsBorder text t.label.start := by
  cases h with
  | node start _ _ => exact start

theorem child (h : t.OnBorders text) (hc : c ∈ t.children) : c.OnBorders text := by
  cases h with
  | node _ _ inside => exact inside c hc

end Tree.OnBorders

theorem onBorders_of_reachable {text : List Char} {p q : Place}
    (h : Relation.ReflTransGen Place.IsChild p q) (hp : p.tree.OnBorders text) :
    q.tree.OnBorders text := by
  induction h with
  | refl => exact hp
  | tail _ hc ih => exact ih.child (Place.tree_mem_of_mem_children hc)

/-- The nodes of the trees that the parser gives start and end between characters of the text. -/
def Toolbox.KeepsBorders (tools : Toolbox) : Prop :=
  ∀ grammar content root hasError,
    tools.parser grammar content = .tree root hasError → root.OnBorders content.toList

namespace Surveyor

variable {s : Surveyor} {lack? : String → Option Fault} {files : List SourceFile}

theorem startsIn_of_mem_outcome (places : s.readers.KeepPlaces) (borders : s.tools.KeepsBorders)
    {file : SourceFile} {d : Declaration} (h : d ∈ (s.outcome lack? file).declarations) :
    d.StartsIn file.content.toList := by
  obtain ⟨language, reader, parsed, known, ok, hd⟩ := exists_parsed_of_mem_outcome h
  obtain ⟨q, reached, stands⟩ := places language reader known parsed d hd
  obtain ⟨-, grammar, hasError, answered⟩ := Toolbox.parsed_eq_ok ok
  obtain ⟨k, -, offset⟩ := (onBorders_of_reachable reached (borders _ _ _ _ answered)).start
  refine ⟨_, _, (List.take_append_drop k _).symm, ?_⟩
  rw [stands.span, ParsedFile.spanOf, Toolbox.source_of_parsed ok, offset]

/-- Every link of a survey has an anchor among the declarations, and is shown at a place of the text
of its file.  The site is one of a character, or of the end of a line, wherever characters are
counted or all are of one byte. -/
theorem run_sites (places : s.readers.KeepPlaces) (borders : s.tools.KeepsBorders)
    (distinct : (files.map SourceFile.path).Nodup) {signal : Option Signal} {store : GrammarStore}
    {r : SurveyResult} (ok : (s.run signal store files).result = .ok r) :
    ∀ l ∈ r.links, (∃ d ∈ r.declarations, d.id = l.anchor) ∧
      ∀ d ∈ r.declarations, d.id = l.anchor → ∀ file ∈ files, file.path = d.path →
        l.ShownIn file.content.toList ∧
          ∀ p, l.site = some p →
            (l.kind = .call ∨ l.kind = .importing ∨
              ∀ c ∈ file.content.toList, c.toNat < 0x80) →
            p.IsIn (cutAt '\n' file.content.toList) := by
  obtain ⟨-, rfl⟩ := run_eq_ok ok
  intro l hl
  dsimp only [SurveyResult.of] at hl ⊢
  rw [declarationsOf_outcomes_eq] at hl ⊢
  have starts : ∀ d ∈ distinctDeclarations (s.declared (store.lack? s.tools.loaders) files),
      ∃ file ∈ files, file.path = d.path ∧ d.StartsIn file.content.toList := by
    intro d hd
    obtain ⟨file, hfile, declared⟩ := List.mem_flatMap.1 (mem_of_mem_withoutRepeats _ hd)
    exact ⟨file, hfile, (path_of_mem_outcome places.paths declared).symm,
      startsIn_of_mem_outcome places borders declared⟩
  obtain ⟨d, hd, anchor, file, hfile, path, shown⟩ :=
    site_of_mem_allLinks starts (mem_of_mem_withoutRepeats _ hl)
  refine ⟨⟨d, hd, anchor⟩, fun e he same other hother path' => ?_⟩
  obtain rfl := eq_of_mem_withoutRepeats Declaration.id hd he (anchor.trans same.symm)
  obtain rfl := List.inj_on_of_nodup_map distinct hfile hother (path.trans path'.symm)
  exact ⟨shown, fun p here plain => shown.isIn here plain⟩

/-- A survey with all grammars and readers, whose parser knows the tree of one file only. -/
def knowing (file : SourceFile) (root : Tree) : Surveyor :=
  let parser : Parser := fun _ content =>
    if content = file.content then .tree root false else .nothing
  ⟨⟨.standard, .standard, parser, none, false⟩, .standard, .standard, 1⟩

theorem keepsBorders_knowing {file : SourceFile} {root : Tree}
    (h : root.OnBorders file.content.toList) : (knowing file root).tools.KeepsBorders := by
  intro grammar content tree hasError answered
  dsimp only [knowing] at answered
  split_ifs at answered with same
  cases answered
  rwa [same]

/-- A class behind a comment of characters of four bytes, all on one line. -/
def smiling : SourceFile := ⟨"f.js", "/*😀😀😀*/class A\x7bm()\x7b\x7d\x7d"⟩

/-- The tree of `smiling`. -/
def smilingTree : Tree :=
  let token (text : String) (start stop : Nat) : Tree := .node ⟨text, false, start, stop, none⟩ []
  let parameters := Tree.node ⟨"formal_parameters", true, 25, 27, some "parameters"⟩
    [token "(" 25 26, token ")" 26 27]
  let block := Tree.node ⟨"statement_block", true, 27, 29, some "body"⟩
    [token "\x7b" 27 28, token "\x7d" 28 29]
  let method := Tree.node ⟨"method_definition", true, 24, 29, some "member"⟩
    [.node ⟨"property_identifier", true, 24, 25, some "name"⟩ [], parameters, block]
  let body := Tree.node ⟨"class_body", true, 23, 30, some "body"⟩
    [token "\x7b" 23 24, method, token "\x7d" 29 30]
  let type := Tree.node ⟨"class_declaration", true, 16, 30, none⟩
    [token "class" 16 21, .node ⟨"identifier", true, 22, 23, some "name"⟩ [], body]
  .node ⟨"program", true, 0, 30, none⟩ [.node ⟨"comment", true, 0, 16, none⟩ [], type]

theorem onBorders_smilingTree : smilingTree.OnBorders smiling.content.toList := by
  simp only [smilingTree, Tree.onBorders_node_iff, List.forall_mem_cons, List.not_mem_nil,
    false_imp_iff, implies_true, and_true]
  decide +kernel

/-- The link from the class of `smiling` to its method. -/
def smilingLink : Link :=
  .shown .ownership "f.js:1:A" "f.js:1:m" ⟨1, 24⟩ "m is a member of its parent"

/-- The method stands behind 24 bytes of its line. -/
theorem run_sites_smiling :
    ∃ r, ((knowing smiling smilingTree).run none .empty [smiling]).result = .ok r ∧
      r.links = [smilingLink] ∧ (∃ d ∈ r.declarations, d.id = smilingLink.anchor) ∧
      smilingLink.ShownIn smiling.content.toList := by
  obtain ⟨r, ok⟩ := run_none (s := knowing smiling smilingTree) rfl .empty [smiling]
  have sites := run_sites (s := knowing smiling smilingTree) keepPlaces_standard
    (keepsBorders_knowing onBorders_smilingTree) (by decide) ok
  obtain ⟨-, rfl⟩ := run_eq_ok ok
  refine ⟨_, ok, by decide +kernel, ?_⟩
  obtain ⟨⟨d, hd, anchor⟩, shown⟩ := sites smilingLink (by decide +kernel)
  have path : smiling.path = d.path := by
    have all : ∀ d ∈ (SurveyResult.of (knowing smiling smilingTree).table [smiling]
        ((knowing smiling smilingTree).outcomes
          (GrammarStore.lack? (knowing smiling smilingTree).tools.loaders .empty)
          [smiling])).declarations, smiling.path = d.path := by decide +kernel
    exact all d hd
  exact ⟨⟨d, hd, anchor⟩, (shown d hd anchor smiling List.mem_cons_self path).1⟩

/-- The line of the method has 21 characters, so its site is none of them. -/
theorem not_isIn_smiling :
    smilingTree.OnBorders smiling.content.toList ∧
      ∃ r, ((knowing smiling smilingTree).run none .empty [smiling]).result = .ok r ∧
        ∃ l ∈ r.links, ∃ p, l.site = some p ∧ ¬ p.IsIn (cutAt '\n' smiling.content.toList) := by
  obtain ⟨r, ok⟩ := run_none (s := knowing smiling smilingTree) rfl .empty [smiling]
  obtain ⟨-, rfl⟩ := run_eq_ok ok
  refine ⟨onBorders_smilingTree, _, ok, smilingLink, by decide +kernel, _, rfl, fun isIn => ?_⟩
  have short := isIn.column_le smiling.content.toList (by decide +kernel)
  exact absurd short (by decide +kernel)

end Surveyor

end CodeGraph
