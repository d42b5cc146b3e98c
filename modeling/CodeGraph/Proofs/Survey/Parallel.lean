import CodeGraph.Proofs.Survey.Accounting
import CodeGraph.Proofs.Survey.Alone

/-!
# Reading files at once

The outcomes and the progress reports of a collection that nothing cancels do not depend on the
schedule (`collect_none_eq`).  They are those of reading the files one after the other
(`Surveyor.sequentially_none_eq`), whatever files each of them was read after
(`Surveyor.collect_eq_sequentially`).
-/

namespace CodeGraph.Surveyor

variable {s : Surveyor} {store : GrammarStore} {files : List SourceFile}

@[simp]
theorem path_survey (file : SourceFile) : (s.survey store file).1.path = file.path := by
  unfold survey
  cases s.reader? file.path <;> rfl

/-- Every file carries what comes of it after some files or other were read. -/
def Carries (s : Surveyor) (store : GrammarStore) : List SourceFile → List FileOutcome → Prop :=
  List.Forall₂ fun file o => ∃ earlier, o = (s.survey (s.surveyAll store earlier).2 file).1

theorem Carries.eq_surveyAll {carried : List FileOutcome} (h : s.Carries store files carried) :
    carried = (s.surveyAll store files).1 := by
  rw [surveyAll_fst_eq_map]
  induction h with
  | nil => rfl
  | cons head _ ih =>
    obtain ⟨earlier, rfl⟩ := head
    rw [List.map_cons, survey_surveyAll, ← ih]

/-- Files that are read at once give the outcomes and the progress reports of files that are read
one after the other, in whatever batches they finish and whatever they were read after. -/
theorem collect_eq_sequentially (trace : Trace) {carried : List FileOutcome}
    {schedule : List (List Nat)} (carries : s.Carries store files carried)
    (hs : IsSchedule files.length schedule) :
    (∃ os, os.map FileOutcome.path = files.map SourceFile.path ∧
      collect carried none schedule trace =
        (.ok os, ⟨trace.progress ++ countUp files.length files.length, trace.asked⟩) ∧
      (s.sequentially none files.length 0 store trace files).1 = .ok os) ∧
    s.inParallel none schedule store trace files =
      s.sequentially none files.length 0 store trace files ∧
    s.readAll none store files = s.sequentially none files.length 0 store ⟨[], 0⟩ files := by
  have one (began : Trace) : s.sequentially none files.length 0 store began files =
      (.ok (s.surveyAll store files).1,
        ⟨began.progress ++ countUp files.length files.length, began.asked⟩,
        (s.surveyAll store files).2) := by
    have read := @sequentially_none_eq s store files files.length 0 began
    simpa [countUp] using read
  have length : carried.length = files.length := carries.length_eq.symm
  have covered : IsSchedule carried.length schedule := by rwa [length]
  have collected := collect_none_eq covered trace
  refine ⟨⟨carried, ?_, ?_, ?_⟩, ?_, ?_⟩
  · rw [carries.eq_surveyAll, surveyAll_fst_eq_map, List.map_map]
    exact List.map_congr_left fun file _ => path_survey file
  · rw [collected, length]
  · rw [one, carries.eq_surveyAll]
  · rw [inParallel_none_eq hs, one]
  · rw [readAll_none_eq, one]
    rfl

/-- A survey that reads two files at once. -/
def twoAtOnce : Surveyor := { bareRoots with workers := 2 }

/-- What comes of the mixed files when the last one is read first and the first one last. -/
def backwards : List FileOutcome :=
  let after (earlier : List SourceFile) (file : SourceFile) : FileOutcome :=
    (twoAtOnce.survey (twoAtOnce.surveyAll .empty earlier).2 file).1
  [after [⟨"c.js", "1"⟩, ⟨"b.py", ""⟩] ⟨"a.txt", ""⟩, after [⟨"c.js", "1"⟩] ⟨"b.py", ""⟩,
    after [] ⟨"c.js", "1"⟩]

theorem collect_eq_sequentially_backwards :
    ∃ os, os.map FileOutcome.path = ["a.txt", "b.py", "c.js"] ∧
      collect backwards none [[2], [1, 0]] ⟨[], 0⟩ = (.ok os, ⟨[(1, 3), (2, 3), (3, 3)], 0⟩) ∧
      (twoAtOnce.sequentially none 3 0 .empty ⟨[], 0⟩ mixedFiles).1 = .ok os ∧
      (twoAtOnce.readAll none .empty mixedFiles).1 = .ok os := by
  have carries : twoAtOnce.Carries .empty mixedFiles backwards :=
    .cons ⟨_, rfl⟩ (.cons ⟨_, rfl⟩ (.cons ⟨_, rfl⟩ .nil))
  have schedule : IsSchedule mixedFiles.length [[2], [1, 0]] := ⟨by decide, by decide⟩
  obtain ⟨⟨os, paths, collected, one⟩, -, all⟩ :=
    collect_eq_sequentially ⟨[], 0⟩ carries schedule
  exact ⟨os, paths, collected, one, by rw [all, one]⟩

end CodeGraph.Surveyor
