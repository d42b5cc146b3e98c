import CodeGraph.Proofs.Survey.Schedule
import CodeGraph.Proofs.Survey.Store

/-!
# The outcomes of a run

What comes of a file does not depend on the files before it: `Surveyor.outcome` gives it from the
tables, the loaders, the parser and the grammars that could be had at the beginning.  A completed
run, sequential or parallel, has these outcomes and the result made of them (`run_eq_ok`); a run
without a cancel signal for which a parser can be made completes (`run_none`).
-/

namespace CodeGraph.Surveyor

variable (s : Surveyor)

/-- What comes of a file, with the grammars that can be had. -/
def outcome (lack? : String → Option Fault) (file : SourceFile) : Outcome :=
  match s.reader? file.path with
  | none => .skipped
  | some reader => outcomeOf reader (s.tools.parsed lack? file.path file.content)

/-- What comes of some files. -/
def outcomes (lack? : String → Option Fault) (files : List SourceFile) : List FileOutcome :=
  files.map fun file => ⟨file.path, s.outcome lack? file⟩

/-! ## One file after the other -/

variable {s} {store : GrammarStore}

theorem survey_fst (h : store.ready = true) (file : SourceFile) :
    (s.survey store file).1 = ⟨file.path, s.outcome (store.lack? s.tools.loaders) file⟩ := by
  unfold survey outcome
  cases s.reader? file.path with
  | none => rfl
  | some reader => rw [← GrammarStore.parse_fst s.tools file.path file.content h]

/-- A file leaves the store ready, and the grammars that can be had are the same. -/
theorem survey_snd (h : store.ready = true) (file : SourceFile) :
    (s.survey store file).2.ready = true ∧
      (s.survey store file).2.lack? s.tools.loaders = store.lack? s.tools.loaders := by
  unfold survey
  cases s.reader? file.path with
  | none => exact ⟨h, rfl⟩
  | some reader =>
    exact ⟨GrammarStore.ready_parse s.tools file.path file.content h,
      GrammarStore.lack?_parse s.tools file.path file.content h⟩

theorem surveyAll_fst (h : store.ready = true) (files : List SourceFile) :
    (s.surveyAll store files).1 = s.outcomes (store.lack? s.tools.loaders) files := by
  induction files generalizing store with
  | nil => rfl
  | cons file rest ih =>
    obtain ⟨ready, same⟩ := survey_snd (s := s) h file
    rw [surveyAll, outcomes, List.map_cons, ← survey_fst h, ← outcomes, ← same, ← ih ready]

theorem sequentially_eq_ok (h : store.ready = true) {signal : Option Signal} {total done : Nat}
    {trace : Trace} {files : List SourceFile} {os : List FileOutcome}
    (ok : (s.sequentially signal total done store trace files).1 = .ok os) :
    os = s.outcomes (store.lack? s.tools.loaders) files := by
  induction files generalizing done store trace os with
  | nil => cases ok; rfl
  | cons file rest ih =>
    obtain ⟨ready, same⟩ := survey_snd (s := s) h file
    unfold sequentially at ok
    simp only at ok
    split_ifs at ok with cancelled
    split at ok
    · rename_i later after hrest
      cases ok
      have tail := ih ready (by rw [hrest])
      rw [outcomes, List.map_cons, ← survey_fst h, ← outcomes, ← same, ← tail]
    · cases ok

theorem sequentially_none_eq {files : List SourceFile} (total done : Nat) (began : Trace) :
    s.sequentially none total done store
        ⟨began.progress ++ countUp total done, began.asked⟩ files =
      (.ok (s.surveyAll store files).1,
        ⟨began.progress ++ countUp total (done + files.length), began.asked⟩,
        (s.surveyAll store files).2) := by
  induction files generalizing done store with
  | nil => rfl
  | cons file rest ih =>
    have later := @ih (s.survey store file).2 (done + 1)
    rw [countUp_succ, ← List.append_assoc] at later
    simp only [sequentially, ask, Bool.false_eq_true, if_false, later, surveyAll,
      List.length_cons, Nat.add_assoc, Nat.add_comm 1]

/-! ## All files -/

@[simp]
theorem length_outcomes (lack? : String → Option Fault) (files : List SourceFile) :
    (s.outcomes lack? files).length = files.length := List.length_map _

theorem readAll_eq_ok (h : store.ready = true) {signal : Option Signal} {files : List SourceFile}
    {os : List FileOutcome} (ok : (s.readAll signal store files).1 = .ok os) :
    os = s.outcomes (store.lack? s.tools.loaders) files := by
  unfold readAll at ok
  simp only at ok
  split_ifs at ok with cancelled one
  · exact sequentially_eq_ok h ok
  · unfold inParallel at ok
    simp only at ok
    rw [surveyAll_fst h] at ok
    refine collect_eq_ok ?_ ok
    rw [length_outcomes]
    exact isSchedule_inOrder files.length

theorem run_eq_ok {signal : Option Signal} {files : List SourceFile} {r : SurveyResult}
    (ok : (s.run signal store files).result = .ok r) :
    (s.run signal store files).outcomes = s.outcomes (store.lack? s.tools.loaders) files ∧
      r = .of s.table files (s.outcomes (store.lack? s.tools.loaders) files) := by
  unfold run at ok ⊢
  rcases hprepare : store.prepare s.tools.unavailable with ⟨_ | _, after⟩
  · rw [hprepare] at ok
    cases ok
  · obtain ⟨ready, kept⟩ := GrammarStore.prepare_of_ok hprepare
    rw [← GrammarStore.lack?_congr s.tools.loaders kept]
    rw [hprepare] at ok
    simp only at ok ⊢
    rcases hread : s.readAll signal after files with ⟨_ | os, trace, last⟩
    · rw [hread] at ok
      cases ok
    · rw [hread] at ok
      have := readAll_eq_ok ready (by rw [hread])
      subst this
      simp only at ok ⊢
      split_ifs at ok ⊢ with cancelled
      cases ok
      exact ⟨rfl, rfl⟩

/-! ## Without a signal -/

@[simp]
theorem length_surveyAll (store : GrammarStore) (files : List SourceFile) :
    (s.surveyAll store files).1.length = files.length := by
  induction files generalizing store with
  | nil => rfl
  | cons file rest ih => rw [surveyAll, List.length_cons, ih, List.length_cons]

theorem inParallel_none_eq {files : List SourceFile} {schedule : List (List Nat)}
    (hs : IsSchedule files.length schedule) (trace : Trace) :
    s.inParallel none schedule store trace files =
      (.ok (s.surveyAll store files).1,
        ⟨trace.progress ++ countUp files.length files.length, trace.asked⟩,
        (s.surveyAll store files).2) := by
  have length := length_surveyAll (s := s) store files
  rw [← length] at hs
  simp only [inParallel, collect_none_eq hs, length]

theorem readAll_none_eq (s : Surveyor) (store : GrammarStore) (files : List SourceFile) :
    s.readAll none store files =
      (.ok (s.surveyAll store files).1, ⟨countUp files.length files.length, 0⟩,
        (s.surveyAll store files).2) := by
  have one := @sequentially_none_eq s store files files.length 0 ⟨[], 0⟩
  have many := @inParallel_none_eq s store files _ (isSchedule_inOrder files.length) ⟨[], 0⟩
  rw [Nat.zero_add] at one
  simp only [readAll, ask, Bool.false_eq_true, if_false]
  split_ifs
  · exact one
  · exact many

/-- A survey that nothing cancels, with any number of files read at once. -/
theorem run_none_eq {prepared : GrammarStore}
    (h : store.prepare s.tools.unavailable = (.ok (), prepared)) (files : List SourceFile) :
    s.run none store files =
      ⟨.ok (.of s.table files (s.surveyAll prepared files).1), (s.surveyAll prepared files).1,
        ⟨countUp files.length files.length, 0⟩, (s.surveyAll prepared files).2⟩ := by
  simp only [run, h, readAll_none_eq, ask, Bool.false_eq_true, if_false]

theorem run_none (h : s.tools.unavailable = none) (store : GrammarStore)
    (files : List SourceFile) :
    ∃ r, (s.run none store files).result = .ok r := by
  obtain ⟨prepared, hprepare⟩ := GrammarStore.prepare_of_available h store
  exact ⟨_, congrArg SurveyRun.result (run_none_eq hprepare files)⟩

end CodeGraph.Surveyor
