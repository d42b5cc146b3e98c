import CodeGraph.Proofs.Survey.Course

/-!
# Files by themselves

What comes of a file is the same before and after other files are read, in any state of the store:
even where no parser can be made, and every file with a reader fails for that reason.  So the
outcomes of some files are what comes of each by itself (`surveyAll_fst_eq_map`).
-/

namespace CodeGraph.Surveyor

variable {s : Surveyor} {store after : GrammarStore}

theorem survey_snd_of_unprepared {f : Fault}
    (h : store.prepare s.tools.unavailable = (.error f, after)) (file : SourceFile) :
    (s.survey store file).2 = store := by
  unfold survey
  cases s.reader? file.path with
  | none => rfl
  | some reader => simp only [GrammarStore.parse, h, GrammarStore.prepare_of_error h]

/-- A file leaves a store that can be prepared so, and the grammars that can be had are the same. -/
theorem survey_snd_of_prepared (h : store.prepare s.tools.unavailable = (.ok (), after))
    (file : SourceFile) :
    (∃ later, (s.survey store file).2.prepare s.tools.unavailable = (.ok (), later)) ∧
      (s.survey store file).2.lack? s.tools.loaders = store.lack? s.tools.loaders := by
  obtain ⟨ready, kept⟩ := GrammarStore.prepare_of_ok h
  unfold survey
  cases s.reader? file.path with
  | none => exact ⟨⟨after, h⟩, rfl⟩
  | some reader =>
    have parsed := GrammarStore.ready_parse s.tools file.path file.content ready
    have same := GrammarStore.lack?_parse s.tools file.path file.content ready
    dsimp only
    rw [GrammarStore.parse_of_prepared h]
    refine ⟨⟨_, GrammarStore.prepare_of_ready parsed⟩, ?_⟩
    rw [same, GrammarStore.lack?_congr s.tools.loaders kept]

/-- A file that was read before makes no difference. -/
theorem survey_survey (other file : SourceFile) :
    (s.survey (s.survey store other).2 file).1 = (s.survey store file).1 := by
  rcases h : store.prepare s.tools.unavailable with ⟨_ | _, after⟩
  · rw [survey_snd_of_unprepared h]
  · obtain ⟨⟨later, h'⟩, same⟩ := survey_snd_of_prepared h other
    rw [survey_of_prepared h', survey_of_prepared h, same]

theorem survey_surveyAll (others : List SourceFile) (file : SourceFile) :
    (s.survey (s.surveyAll store others).2 file).1 = (s.survey store file).1 := by
  induction others generalizing store with
  | nil => rfl
  | cons other rest ih =>
    rw [surveyAll]
    exact ih.trans (survey_survey other file)

theorem surveyAll_fst_eq_map (files : List SourceFile) :
    (s.surveyAll store files).1 = files.map fun file => (s.survey store file).1 := by
  induction files generalizing store with
  | nil => rfl
  | cons file rest ih =>
    rw [surveyAll, List.map_cons]
    simp only [ih, survey_survey]

theorem ready_surveyAll (h : store.ready = true) (files : List SourceFile) :
    (s.surveyAll store files).2.ready = true := by
  induction files generalizing store with
  | nil => exact h
  | cons file rest ih => exact ih (survey_snd h file).1

/-- Nor does it make a difference whether the store was prepared before. -/
theorem survey_prepared (h : store.prepare s.tools.unavailable = (.ok (), after))
    (file : SourceFile) : (s.survey after file).1 = (s.survey store file).1 := by
  obtain ⟨ready, kept⟩ := GrammarStore.prepare_of_ok h
  rw [survey_of_prepared (GrammarStore.prepare_of_ready ready), survey_of_prepared h,
    GrammarStore.lack?_congr s.tools.loaders kept]

end CodeGraph.Surveyor
