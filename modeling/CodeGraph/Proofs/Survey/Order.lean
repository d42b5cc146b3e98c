import CodeGraph.Proofs.Link.Order
import CodeGraph.Proofs.Ownership.Survey
import CodeGraph.Proofs.Survey.Course
import CodeGraph.Proofs.Survey.Paths

/-!
# Surveys do not depend on the order of their files

Files with different paths whose declarations have different names may be given in any order: the
survey ends in the same way, and the lists of its result are the same but for their order, every
link with the place and the words that show it (`run_perm`).
-/

namespace CodeGraph

/-- Surveys that end with the same fault, or with results that agree but for the order of what they
list. -/
inductive SameButForOrder : Except Fault SurveyResult → Except Fault SurveyResult → Prop where
  | fault (f : Fault) : SameButForOrder (.error f) (.error f)
  | result {r r' : SurveyResult} (declarations : r.declarations.Perm r'.declarations)
      (links : r.links.Perm r'.links) (failures : r.failures.Perm r'.failures)
      (skipped : r.skipped.Perm r'.skipped) (fileCount : r.fileCount = r'.fileCount) :
      SameButForOrder (.ok r) (.ok r')

namespace Surveyor

variable {s : Surveyor} {lack? : String → Option Fault} {files files' : List SourceFile}

variable (s) in
/-- The declarations that some files give, each file taken by itself. -/
def extracted (store : GrammarStore) (files : List SourceFile) : List Declaration :=
  files.flatMap fun file => (s.survey store file).1.outcome.declarations

theorem extracted_of_prepared {store after : GrammarStore}
    (h : store.prepare s.tools.unavailable = (.ok (), after)) (files : List SourceFile) :
    s.extracted store files = s.declared (store.lack? s.tools.loaders) files := by
  unfold extracted declared
  simp only [survey_of_prepared h]

theorem unambiguous_declared (own : s.readers.KeepPaths)
    (paths : ∀ file ∈ files, ':' ∉ file.path.toList)
    (plain : ∀ d ∈ s.declared lack? files, ':' ∉ d.name.toList)
    (names : ((s.declared lack? files).map Declaration.name).Nodup) :
    Unambiguous (s.declared lack? files) where
  plain d hd := by
    obtain ⟨file, hfile, path⟩ := exists_file_of_mem_declared own hd
    exact ⟨path ▸ paths file hfile, plain d hd⟩
  names := names

/-- Nothing that is declared unambiguously is dropped. -/
theorem declarationsOf_outcomes_of_unambiguous (h : Unambiguous (s.declared lack? files)) :
    declarationsOf (s.outcomes lack? files) = s.declared lack? files := by
  rw [declarationsOf_outcomes_eq]
  exact withoutRepeats_eq_self Declaration.id h.ids

theorem declared_perm (perm : files.Perm files') :
    (s.declared lack? files).Perm (s.declared lack? files') :=
  perm.flatMap_right _

/-- The results of the outcomes of the same files in two orders. -/
theorem sameButForOrder_of (own : s.readers.KeepPaths) (perm : files.Perm files')
    (distinct : (files.map SourceFile.path).Nodup) (h : Unambiguous (s.declared lack? files)) :
    SameButForOrder (.ok (.of s.table files (s.outcomes lack? files)))
      (.ok (.of s.table files' (s.outcomes lack? files'))) := by
  have outcomes : (s.outcomes lack? files).Perm (s.outcomes lack? files') := perm.map _
  have distinct' : (files'.map SourceFile.path).Nodup :=
    (perm.map SourceFile.path).nodup_iff.1 distinct
  have declarations := declarationsOf_outcomes_of_unambiguous h
  have declarations' := declarationsOf_outcomes_of_unambiguous (h.perm (declared_perm perm))
  constructor
  · dsimp only [SurveyResult.of]
    rw [declarations, declarations']
    exact declared_perm perm
  · dsimp only [SurveyResult.of]
    rw [declarations, declarations']
    refine resolve_perm h (declared_perm perm) perm distinct fun file hfile => ?_
    rw [filter_declared own distinct hfile, filter_declared own distinct' (perm.mem_iff.1 hfile)]
  · exact outcomes.filterMap _
  · exact (outcomes.filter _).map _
  · exact perm.length_eq

/-- The order of files with different paths, whose declarations have different names, changes
nothing about a survey but the order in which it lists what it found. -/
theorem run_perm (own : s.readers.KeepPaths) (signal : Option Signal) (store : GrammarStore)
    (perm : files.Perm files') (distinct : (files.map SourceFile.path).Nodup)
    (paths : ∀ file ∈ files, ':' ∉ file.path.toList)
    (plain : ∀ d ∈ s.extracted store files, ':' ∉ d.name.toList)
    (names : ((s.extracted store files).map Declaration.name).Nodup) :
    SameButForOrder (s.run signal store files).result (s.run signal store files').result := by
  rcases hprepare : store.prepare s.tools.unavailable with ⟨f | _, after⟩
  · have result (files : List SourceFile) : (s.run signal store files).result = .error f :=
      congrArg Prod.fst (run_of_unprepared hprepare)
    rw [result, result]
    exact .fault f
  · have result (files : List SourceFile) : (s.run signal store files).result =
        (s.observed signal (store.lack? s.tools.loaders) files).1 :=
      congrArg Prod.fst (run_of_prepared hprepare)
    rw [extracted_of_prepared hprepare] at plain names
    rw [result, result, observed, observed, perm.length_eq]
    dsimp only
    cases (s.course signal files'.length).1 with
    | error stage => exact .fault _
    | ok _ =>
      exact sameButForOrder_of own perm distinct (unambiguous_declared own paths plain names)

/-- The tree of a function with a name of one letter and a call in its body. -/
def callingTree : Tree :=
  .node ⟨"program", true, 0, 19, none⟩
    [.node ⟨"function_declaration", true, 0, 19, none⟩
      [.node ⟨"identifier", true, 9, 11, some "name"⟩ []]]

/-- Two files whose functions call one another. -/
def partners : List SourceFile :=
  [⟨"f.js", "function f1()\x7bg1()\x7d"⟩, ⟨"g.js", "function g1()\x7bf1()\x7d"⟩]

/-- The surveys of the two files find the calls in different orders. -/
theorem run_perm_partners :
    ∃ r r', ((seeing callingTree).run none .empty partners).result = .ok r ∧
      ((seeing callingTree).run none .empty partners.reverse).result = .ok r' ∧
      r.links.Perm r'.links ∧
      r.links.map Link.target = ["g.js:1:g1", "f.js:1:f1"] ∧
      r'.links.map Link.target = ["f.js:1:f1", "g.js:1:g1"] := by
  obtain ⟨r, ok⟩ := run_none (s := seeing callingTree) rfl .empty partners
  obtain ⟨r', ok'⟩ := run_none (s := seeing callingTree) rfl .empty partners.reverse
  have same := run_perm (s := seeing callingTree) keepPaths_standard none .empty
    partners.reverse_perm.symm (by decide) (by decide) (by decide +kernel) (by decide +kernel)
  rw [ok, ok'] at same
  obtain ⟨-, rfl⟩ := run_eq_ok ok
  obtain ⟨-, rfl⟩ := run_eq_ok ok'
  cases same with
  | result _ links => exact ⟨_, _, ok, ok', links, by decide +kernel, by decide +kernel⟩

end Surveyor

end CodeGraph
