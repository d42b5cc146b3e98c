import CodeGraph.Proofs.Survey.Order
import CodeGraph.Proofs.Survey.Parallel
import CodeGraph.Proofs.Survey.Session

/-!
# Batches

What a survey finds in the files of two batches is what it finds in the one and then in the other,
with the first declaration of every id kept (`run_append`): the outcome of a file does not depend on
the files with which it is read, nor on the surveys before.
-/

namespace CodeGraph

/-- The first result lists what the other two list, one after the other. -/
structure SurveyResult.Joins (r r₁ r₂ : SurveyResult) : Prop where
  declarations : r.declarations = distinctDeclarations (r₁.declarations ++ r₂.declarations)
  failures : r.failures = r₁.failures ++ r₂.failures
  skipped : r.skipped = r₁.skipped ++ r₂.skipped
  fileCount : r.fileCount = r₁.fileCount + r₂.fileCount

theorem declarationsOf_append (os os' : List FileOutcome) :
    declarationsOf (os ++ os') =
      distinctDeclarations (declarationsOf os ++ declarationsOf os') := by
  rw [declarationsOf, List.flatMap_append]
  exact (withoutRepeats_append_withoutRepeats Declaration.id _ _).symm

@[simp]
theorem skippedOf_append (os os' : List FileOutcome) :
    skippedOf (os ++ os') = skippedOf os ++ skippedOf os' := by
  simp [skippedOf]

namespace Session

open Surveyor (seeing callingTree partners)

variable {s : Surveyor} {session : Session} {prepared : GrammarStore}

theorem store_run (s : Surveyor) (session : Session) (signal : Option Signal)
    (files : List SourceFile) :
    (session.run s signal files).2.store = (s.run signal session.store files).store := by
  unfold run Surveyor.run
  rcases session.store.prepare s.tools.unavailable with ⟨_ | _, after⟩
  · rfl
  · dsimp only
    rcases s.readAll signal after files with ⟨_ | outcomes, trace, last⟩
    · rfl
    · dsimp only
      split_ifs <;> rfl

/-- A survey that nothing cancels takes what comes of each file by itself. -/
theorem run_none_eq (h : session.store.prepare s.tools.unavailable = (.ok (), prepared))
    (files : List SourceFile) :
    let os := files.map fun file => (s.survey session.store file).1
    (session.run s none files).1.result = .ok (session.relink s files (.of s.table files os)) ∧
      (session.run s none files).1.outcomes = os := by
  have alone : (s.surveyAll prepared files).1 =
      files.map fun file => (s.survey session.store file).1 := by
    rw [Surveyor.surveyAll_fst_eq_map]
    exact List.map_congr_left fun file _ => Surveyor.survey_prepared h file
  rw [run_fst, Surveyor.run_none_eq h, alone]
  exact ⟨rfl, rfl⟩

/-- A survey leaves a session in which the next one can start, and single files come out alike. -/
theorem after_run_none (h : session.store.prepare s.tools.unavailable = (.ok (), prepared))
    (files : List SourceFile) :
    (∃ later, (session.run s none files).2.store.prepare s.tools.unavailable = (.ok (), later)) ∧
      ∀ file, (s.survey (session.run s none files).2.store file).1 =
        (s.survey session.store file).1 := by
  have ready := (GrammarStore.prepare_of_ok h).1
  rw [store_run, Surveyor.run_none_eq h]
  refine ⟨⟨_, GrammarStore.prepare_of_ready (Surveyor.ready_surveyAll ready files)⟩, fun file => ?_⟩
  rw [Surveyor.survey_surveyAll, Surveyor.survey_prepared h]

/-- A survey of two batches lists what a survey of the first and one of the second list, be it in
the same state or after the first; every file has the outcome of a survey of it alone. -/
theorem run_append (creatable : (session.store.prepare s.tools.unavailable).1 = .ok ())
    (first second : List SourceFile) :
    ∃ r r₁, (session.run s none (first ++ second)).1.result = .ok r ∧
      (session.run s none first).1.result = .ok r₁ ∧
      (∀ later ∈ [session, (session.run s none first).2],
        ∃ r₂, (later.run s none second).1.result = .ok r₂ ∧ r.Joins r₁ r₂) ∧
      (session.run s none (first ++ second)).1.outcomes =
        (first ++ second).flatMap (fun file => (session.run s none [file]).1.outcomes) ∧
      ∀ file, (session.run s none [file]).1.outcomes = [(s.survey session.store file).1] := by
  obtain ⟨prepared, h⟩ : ∃ prepared,
      session.store.prepare s.tools.unavailable = (.ok (), prepared) := ⟨_, Prod.ext creatable rfl⟩
  have alone (file : SourceFile) :
      (session.run s none [file]).1.outcomes = [(s.survey session.store file).1] :=
    (run_none_eq h [file]).2
  refine ⟨_, _, (run_none_eq h (first ++ second)).1, (run_none_eq h first).1, ?_, ?_, alone⟩
  · intro later hlater
    obtain ⟨⟨prepared', h'⟩, same⟩ :
        (∃ prepared', later.store.prepare s.tools.unavailable = (.ok (), prepared')) ∧
          ∀ file, (s.survey later.store file).1 = (s.survey session.store file).1 := by
      rcases List.mem_pair.1 hlater with rfl | rfl
      · exact ⟨⟨prepared, h⟩, fun _ => rfl⟩
      · exact after_run_none h first
    have second := (run_none_eq h' second).1
    simp only [same] at second
    refine ⟨_, second, ?_⟩
    rw [List.map_append]
    exact {
      declarations := declarationsOf_append _ _
      failures := List.filterMap_append
      skipped := skippedOf_append _ _
      fileCount := List.length_append }
  · simp only [alone, (run_none_eq h (first ++ second)).2, List.map_eq_flatMap]

/-- The file of both batches is surveyed twice, but its function is found once. -/
theorem run_append_partners :
    ∃ r r₁ r₂,
      (fresh.run (seeing callingTree) none (partners ++ partners.take 1)).1.result = .ok r ∧
      (fresh.run (seeing callingTree) none partners).1.result = .ok r₁ ∧
      ((fresh.run (seeing callingTree) none partners).2.run (seeing callingTree) none
        (partners.take 1)).1.result = .ok r₂ ∧
      r.Joins r₁ r₂ ∧
      r.declarations.map Declaration.id = ["f.js:1:f1", "g.js:1:g1"] ∧ r.fileCount = 3 := by
  have creatable : fresh.store.prepare (seeing callingTree).tools.unavailable =
      (.ok (), ⟨true, [], []⟩) := rfl
  obtain ⟨r, r₁, ok, ok₁, joins, -⟩ :=
    run_append (congrArg Prod.fst creatable) partners (partners.take 1)
  obtain ⟨r₂, ok₂, joined⟩ := joins _ (List.mem_pair.2 (Or.inr rfl))
  have known := (run_none_eq creatable (partners ++ partners.take 1)).1
  rw [ok] at known
  obtain rfl := Except.ok.inj known
  exact ⟨_, r₁, r₂, ok, ok₁, ok₂, joined, by decide +kernel, rfl⟩

end Session

end CodeGraph
