import CodeGraph.Proofs.Ownership.Links
import CodeGraph.Proofs.Survey.Sightings

/-!
# Owners in the result of a survey

In the result of a completed survey, and in what every file contributes to it, exactly the methods
have owners, a declaration with the id of the owner stands before each of them, and ownership has no
circles (`OwnersOrdered`).  If neither paths nor names have colons, the ownership links of the
result are those from the owners to the methods (`run_ownersOrdered`).
-/

namespace CodeGraph

/-- No id occurs twice, exactly the methods have an owner, a declaration with its id stands before
them, and no declaration owns itself, directly or through others. -/
structure OwnersOrdered (ds : List Declaration) : Prop where
  unique : (ds.map Declaration.id).Nodup
  kind : ∀ d ∈ ds, d.owner.isSome ↔ d.kind = .method
  before : ∀ (i : Nat) (d : Declaration) (id : String), ds[i]? = some d → d.owner = some id →
    ∃ (j : Nat) (t : Declaration), j < i ∧ ds[j]? = some t ∧ t.id = id
  acyclic : ∀ d, ¬ Relation.TransGen (OwnedBy ds) d d

theorem OwnersOrdered.exists_owner {ds : List Declaration} (h : OwnersOrdered ds) {d : Declaration}
    (hd : d ∈ ds) {id : String} (hid : d.owner = some id) : ∃ t ∈ ds, t.id = id := by
  obtain ⟨i, hi⟩ := List.mem_iff_getElem?.1 hd
  obtain ⟨j, t, -, ht, htid⟩ := h.before i d id hi hid
  exact ⟨t, List.mem_of_getElem? ht, htid⟩

/-- Dropping repeats from a list with owners first leaves the owners in order. -/
theorem OwnersFirst.ordered {files : List SourceFile} {R : Declaration → Declaration → Prop}
    {ds : List Declaration} (h : OwnersFirst (Surveyor.Found files) R ds) :
    OwnersOrdered (distinctDeclarations ds) where
  unique := nodup_map_withoutRepeats Declaration.id ds
  kind d hd := (h.distinct.forall_mem d hd).kind
  before _ _ _ hi hid := h.distinct.exists_lt hi hid
  acyclic := h.distinct.not_transGen_ownedBy_self (nodup_map_withoutRepeats Declaration.id ds)

namespace Surveyor

variable {s : Surveyor} {lack? : String → Option Fault} {files : List SourceFile}

theorem ownersOrdered_declarationsOf (standard : s.readers = .standard) :
    OwnersOrdered (declarationsOf (s.outcomes lack? files)) := by
  rw [declarationsOf_outcomes standard]
  exact (ownersFirst_flatMap_sightings lack? files).ordered

theorem ownersOrdered_outcome (standard : s.readers = .standard) (file : SourceFile) :
    OwnersOrdered (s.outcome lack? file).declarations := by
  rw [declarations_outcome standard]
  have := ownersFirst_flatMap_sightings (s := s) lack? [file]
  rw [List.flatMap_singleton] at this
  exact this.ordered

/-- A declaration of a survey has the path of one of its files. -/
theorem exists_path_eq (standard : s.readers = .standard) {d : Declaration}
    (hd : d ∈ declarationsOf (s.outcomes lack? files)) : ∃ file ∈ files, d.path = file.path := by
  rw [declarationsOf_outcomes standard] at hd
  exact ((ownersFirst_flatMap_sightings lack? files).distinct.forall_mem d hd).file

/-- In the result of a completed survey with all readers, and in what each file contributes, the
owners are in order; without colons there is one ownership link for each method and no other. -/
theorem run_ownersOrdered (standard : s.readers = .standard) {signal : Option Signal}
    {store : GrammarStore} {r : SurveyResult} (ok : (s.run signal store files).result = .ok r) :
    OwnersOrdered r.declarations ∧
      (∀ o ∈ (s.run signal store files).outcomes, OwnersOrdered o.outcome.declarations) ∧
      ((∀ file ∈ files, ':' ∉ file.path.toList) → (∀ d ∈ r.declarations, ':' ∉ d.name.toList) →
        (linksOf .ownership r.links).map (fun l => (some l.source, l.target)) =
          (r.declarations.filter fun d => d.kind = .method).map fun d => (d.owner, d.id)) := by
  obtain ⟨outcomes, rfl⟩ := run_eq_ok ok
  have ordered : OwnersOrdered (declarationsOf (s.outcomes (store.lack? s.tools.loaders) files)) :=
    ownersOrdered_declarationsOf standard
  refine ⟨ordered, fun o ho => ?_, fun paths names => ?_⟩
  · rw [outcomes] at ho
    obtain ⟨file, -, rfl⟩ := List.mem_map.1 ho
    exact ownersOrdered_outcome standard file
  · refine ownership_resolve files ordered.unique ordered.kind ?_ fun d hd => ?_
    · exact fun d hd id hid => ordered.exists_owner hd hid
    · obtain ⟨file, hfile, path⟩ := exists_path_eq standard hd
      exact ⟨path ▸ paths file hfile, names d hd⟩

/-- A survey with all grammars and readers, whose parser gives one tree for every text. -/
def seeing (root : Tree) : Surveyor :=
  ⟨⟨.standard, .standard, fun _ _ => .tree root false, none, false⟩, .standard, .standard, 1⟩

/-- A class in a function of the same name, all on one line. -/
def shadowed : SourceFile := ⟨"f.js", "function A()\x7bclass A\x7bm()\x7b\x7d\x7d\x7d"⟩

/-- The tree of `shadowed`. -/
def shadowedTree : Tree :=
  let token (text : String) (start stop : Nat) : Tree := .node ⟨text, false, start, stop, none⟩ []
  let name (kind : String) (start : Nat) : Tree :=
    .node ⟨kind, true, start, start + 1, some "name"⟩ []
  let parameters (start : Nat) : Tree :=
    .node ⟨"formal_parameters", true, start, start + 2, some "parameters"⟩
      [token "(" start (start + 1), token ")" (start + 1) (start + 2)]
  let body (kind : String) (start stop : Nat) (inside : List Tree) : Tree :=
    .node ⟨kind, true, start, stop, some "body"⟩
      (token "\x7b" start (start + 1) :: (inside ++ [token "\x7d" (stop - 1) stop]))
  let method := Tree.node ⟨"method_definition", true, 21, 26, some "member"⟩
    [name "property_identifier" 21, parameters 22, body "statement_block" 24 26 []]
  let type := Tree.node ⟨"class_declaration", true, 13, 27, none⟩
    [token "class" 13 18, name "identifier" 19, body "class_body" 20 27 [method]]
  .node ⟨"program", true, 0, 28, none⟩
    [.node ⟨"function_declaration", true, 0, 28, none⟩
      [token "function" 0 8, name "identifier" 9, parameters 10,
        body "statement_block" 12 28 [type]]]

/-- The class goes as a repeat of the function, which has its id: the method keeps an owner. -/
theorem run_ownersOrdered_shadowed :
    ∃ r, ((seeing shadowedTree).run none .empty [shadowed]).result = .ok r ∧
      OwnersOrdered r.declarations ∧
      r.declarations.map (fun d => (d.id, d.owner)) =
        [("f.js:1:A", none), ("f.js:1:m", some "f.js:1:A")] ∧
      (linksOf .ownership r.links).map (fun l => (some l.source, l.target)) =
        [(some "f.js:1:A", "f.js:1:m")] := by
  obtain ⟨r, ok⟩ := run_none (s := seeing shadowedTree) rfl .empty [shadowed]
  have ordered := run_ownersOrdered rfl ok
  obtain ⟨-, rfl⟩ := run_eq_ok ok
  refine ⟨_, ok, ordered.1, by decide +kernel, ?_⟩
  exact (ordered.2.2 (by decide) (by decide +kernel)).trans (by decide +kernel)

end Surveyor

end CodeGraph
