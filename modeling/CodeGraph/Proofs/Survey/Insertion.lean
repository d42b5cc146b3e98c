import CodeGraph.Proofs.Survey.Order

/-!
# Files that declare nothing

A file that is skipped, fails, or declares nothing may stand anywhere among other files: the graph
of declarations and links is the one without it (`run_insert`).  Its text is searched for imports
and calls like that of any file, but no declaration has its path, so nothing is found for it.
-/

namespace CodeGraph

/-- Nothing is declared: the file was skipped, could not be parsed or read, or has no
declarations. -/
inductive Outcome.Barren : Outcome → Prop where
  | skipped : Barren .skipped
  | unparsed (f : Fault) : Barren (.unparsed f)
  | unread (f : Fault) : Barren (.unread f)
  | empty : Barren (.declared [])

theorem Outcome.barren_iff {o : Outcome} : o.Barren ↔ o.declarations = [] := by
  constructor
  · intro h
    cases h <;> rfl
  · intro none
    cases o with
    | skipped => exact .skipped
    | unparsed f => exact .unparsed f
    | unread f => exact .unread f
    | declared ds =>
      obtain rfl : ds = [] := none
      exact .empty

/-- What was found, without the accounts of the files. -/
def SurveyResult.graph (r : SurveyResult) : List Declaration × List Link :=
  (r.declarations, r.links)

/-- The second result has the graph of the first one and accounts for one file more. -/
structure SurveyResult.Enlarges (r' r : SurveyResult) : Prop where
  graph : r'.graph = r.graph
  failures : r.failures.Sublist r'.failures
  skipped : r.skipped.Sublist r'.skipped
  fileCount : r'.fileCount = r.fileCount + 1

/-! ## Links -/

variable {table : ExtensionTable} {ds : List Declaration} {before after : List SourceFile}
  {file : SourceFile}

theorem importLinksOf_eq_nil (absent : ∀ d ∈ ds, d.path ≠ file.path) :
    importLinksOf table ds file = [] := by
  have none : (ds.filter fun d => d.path = file.path) = [] :=
    List.filter_eq_nil_iff.2 fun d hd same => absent d hd (of_decide_eq_true same)
  rw [importLinksOf, none]
  rfl

theorem lookup_linesByPath_insert {path : String} (other : path ≠ file.path) :
    (linesByPath (before ++ file :: after)).lookup path =
      (linesByPath (before ++ after)).lookup path := by
  have skipped : (path == file.path) = false := beq_false_of_ne other
  simp only [linesByPath, List.reverse_append, List.reverse_cons, List.map_append,
    List.lookup_append, List.map_cons, List.map_nil, List.lookup_cons, List.lookup_nil, skipped,
    Option.or_none]

/-- A file from which nothing is declared makes no links. -/
theorem resolve_insert (absent : ∀ d ∈ ds, d.path ≠ file.path) :
    resolve table ds (before ++ file :: after) = resolve table ds (before ++ after) := by
  have imports : importLinks table ds (before ++ file :: after) =
      importLinks table ds (before ++ after) := by
    simp only [importLinks, List.flatMap_append, List.flatMap_cons, importLinksOf_eq_nil absent,
      List.nil_append]
  have calls : callLinks ds (before ++ file :: after) = callLinks ds (before ++ after) :=
    callLinks_congr fun d hd => lookup_linesByPath_insert (absent d hd)
  rw [resolve, resolve, allLinks, allLinks, imports, calls]

/-! ## Surveys -/

namespace Surveyor

variable {s : Surveyor} {lack? : String → Option Fault}

theorem declared_insert (barren : (s.outcome lack? file).Barren) :
    s.declared lack? (before ++ file :: after) = s.declared lack? (before ++ after) := by
  simp only [declared, List.flatMap_append, List.flatMap_cons, Outcome.barren_iff.1 barren,
    List.nil_append]

theorem graph_insert (own : s.readers.KeepPaths)
    (new : file.path ∉ (before ++ after).map SourceFile.path)
    (barren : (s.outcome lack? file).Barren) :
    (SurveyResult.of s.table (before ++ file :: after)
        (s.outcomes lack? (before ++ file :: after))).graph =
      (SurveyResult.of s.table (before ++ after) (s.outcomes lack? (before ++ after))).graph := by
  have absent : ∀ d ∈ distinctDeclarations (s.declared lack? (before ++ after)),
      d.path ≠ file.path := by
    intro d hd same
    obtain ⟨other, hother, path⟩ :=
      exists_file_of_mem_declared own (mem_of_mem_withoutRepeats _ hd)
    exact new (List.mem_map.2 ⟨other, hother, path.symm.trans same⟩)
  dsimp only [SurveyResult.graph, SurveyResult.of]
  rw [declarationsOf_outcomes_eq, declarationsOf_outcomes_eq, declared_insert barren,
    resolve_insert absent]

theorem enlarges_insert (own : s.readers.KeepPaths)
    (new : file.path ∉ (before ++ after).map SourceFile.path)
    (barren : (s.outcome lack? file).Barren) :
    (SurveyResult.of s.table (before ++ file :: after)
        (s.outcomes lack? (before ++ file :: after))).Enlarges
      (.of s.table (before ++ after) (s.outcomes lack? (before ++ after))) := by
  have outcomes : (s.outcomes lack? (before ++ after)).Sublist
      (s.outcomes lack? (before ++ file :: after)) :=
    ((List.sublist_cons_self file after).append_left before).map _
  refine ⟨graph_insert own new barren, outcomes.filterMap _, (outcomes.filter _).map _, ?_⟩
  simp only [SurveyResult.of, List.length_append, List.length_cons, Nat.add_assoc]

/-- A file with a path of its own that declares nothing leaves the graph as it is, wherever it
stands: the survey with it ends like the one without it, and if neither is cancelled only the
accounts differ. -/
theorem run_insert (own : s.readers.KeepPaths) (store : GrammarStore)
    (new : file.path ∉ (before ++ after).map SourceFile.path)
    (barren : (s.survey store file).1.outcome.Barren) :
    (s.run none store (before ++ file :: after)).result.map SurveyResult.graph =
        (s.run none store (before ++ after)).result.map SurveyResult.graph ∧
      ∀ (signal signal' : Option Signal) (r r' : SurveyResult),
        (s.run signal store (before ++ after)).result = .ok r →
          (s.run signal' store (before ++ file :: after)).result = .ok r' → r'.Enlarges r := by
  rcases hprepare : store.prepare s.tools.unavailable with ⟨f | _, prepared⟩
  · have result (signal : Option Signal) (files : List SourceFile) :
        (s.run signal store files).result = .error f :=
      congrArg Prod.fst (run_of_unprepared hprepare)
    refine ⟨by rw [result, result], fun signal signal' r r' ok _ => ?_⟩
    rw [result] at ok
    cases ok
  · rw [survey_of_prepared hprepare] at barren
    have result (files : List SourceFile) : (s.run none store files).result =
        .ok (.of s.table files (s.outcomes (store.lack? s.tools.loaders) files)) := by
      have observed : (s.run none store files).result = _ :=
        congrArg Prod.fst (run_of_prepared hprepare)
      rw [observed, Surveyor.observed, course_none]
      rfl
    constructor
    · rw [result, result]
      exact congrArg Except.ok (graph_insert own new barren)
    · intro signal signal' r r' ok ok'
      obtain ⟨-, rfl⟩ := run_eq_ok ok
      obtain ⟨-, rfl⟩ := run_eq_ok ok'
      exact enlarges_insert own new barren

/-- A file that only imports from one of the partners. -/
def importer : SourceFile := ⟨"h.py", "from g import g1"⟩

/-- The importer stands between the partners, and no link is its. -/
theorem run_insert_importer :
    ∃ r r', ((seeing callingTree).run none .empty partners).result = .ok r ∧
      ((seeing callingTree).run none .empty
        (partners.take 1 ++ importer :: partners.drop 1)).result = .ok r' ∧
      r'.Enlarges r ∧ r'.links.map Link.target = ["g.js:1:g1", "f.js:1:f1"] := by
  obtain ⟨r, ok⟩ := run_none (s := seeing callingTree) rfl .empty partners
  obtain ⟨r', ok'⟩ := run_none (s := seeing callingTree) rfl .empty
    (partners.take 1 ++ importer :: partners.drop 1)
  have barren : ((seeing callingTree).survey .empty importer).1.outcome.Barren :=
    Outcome.barren_iff.2 (by decide +kernel)
  have new : importer.path ∉ (partners.take 1 ++ partners.drop 1).map SourceFile.path := by decide
  have enlarges := (run_insert keepPaths_standard .empty new barren).2 none none r r' ok ok'
  refine ⟨r, r', ok, ok', enlarges, ?_⟩
  obtain ⟨-, rfl⟩ := run_eq_ok ok'
  decide +kernel

end Surveyor

end CodeGraph
