import CodeGraph.Proofs.Survey.Parallel
import CodeGraph.Proofs.Survey.Session

/-!
# Cancelled surveys

A survey that reads its `k` files one by one asks its signal `k + 2` times: before the first file,
before each file, and before the links are resolved.  While the answers are no, it goes on
(`pace_of_quiet`); the first yes ends it there and then, and shows in how far the files were read
(`run_heeds_signal`).
-/

namespace CodeGraph

/-- The signal is asked in vain until its answer `j`, which is yes. -/
structure Signal.FirstAt (signal : Signal) (j : Nat) : Prop where
  quiet : ∀ i < j, signal i = false
  yes : signal j = true

theorem pace_of_quiet {signal : Signal} {m : Nat} (total n done asked : Nat)
    (quiet : ∀ i < m, signal (asked + i) = false) :
    pace (some signal) total (m + n) done ⟨countUp total done, asked⟩ =
      pace (some signal) total n (done + m) ⟨countUp total (done + m), asked + m⟩ := by
  induction m generalizing done asked with
  | zero => simp
  | succ m ih =>
    have first : signal asked = false := quiet 0 (by omega)
    have rest : ∀ i < m, signal (asked + 1 + i) = false := by
      intro i hi
      have := quiet (i + 1) (by omega)
      rwa [Nat.add_comm i 1, ← Nat.add_assoc] at this
    have later := ih (done + 1) (asked + 1) rest
    rw [countUp_succ] at later
    simp only [Nat.add_right_comm m 1 n, pace, ask, first, Bool.false_eq_true, if_false, later]
    simp only [Nat.add_assoc, Nat.add_comm 1]

/-- Where a survey of `k` files that are read one by one asks for the answer `j`. -/
def stageAt (k j : Nat) : Stage :=
  if j = 0 then .beforeExtraction else if j ≤ k then .betweenFiles else .beforeResolution

namespace Surveyor

variable {s : Surveyor} {signal : Signal} {k j : Nat}

theorem reading_eq_pace (one : s.workers ≤ 1 ∨ k ≤ 1) (start : signal 0 = false) :
    s.reading (some signal) k = pace (some signal) k k 0 ⟨countUp k 0, 1⟩ := by
  simp only [reading, ask, start, Bool.false_eq_true, if_false, if_pos one]
  rfl

theorem reading_of_quiet (one : s.workers ≤ 1 ∨ k ≤ 1) (quiet : ∀ i < k + 1, signal i = false) :
    s.reading (some signal) k = (.ok (), ⟨countUp k k, k + 1⟩) := by
  have between : ∀ i < k, signal (1 + i) = false := fun i hi => quiet _ (by omega)
  have paced := pace_of_quiet k 0 0 1 between
  rw [reading_eq_pace one (quiet 0 (by omega))]
  simpa only [Nat.add_zero, Nat.zero_add, Nat.add_comm 1, pace] using paced

theorem reading_of_first {n : Nat} (one : s.workers ≤ 1 ∨ j + (n + 1) ≤ 1)
    (h : signal.FirstAt (j + 1)) :
    s.reading (some signal) (j + (n + 1)) =
      (.error .betweenFiles, ⟨countUp (j + (n + 1)) j, j + 2⟩) := by
  have between : ∀ i < j, signal (1 + i) = false := fun i hi => h.quiet _ (by omega)
  have paced := pace_of_quiet (j + (n + 1)) (n + 1) 0 1 between
  have yes : signal (1 + j) = true := by rw [Nat.add_comm]; exact h.yes
  rw [reading_eq_pace one (h.quiet 0 (by omega)), paced]
  simp only [pace, ask, yes, if_true, Nat.zero_add]
  congr 2
  omega

theorem course_of_quiet (one : s.workers ≤ 1 ∨ k ≤ 1) (quiet : ∀ i < k + 2, signal i = false) :
    s.course (some signal) k = (.ok (), ⟨countUp k k, k + 2⟩) := by
  have last : signal (k + 1) = false := quiet _ (by omega)
  rw [course, reading_of_quiet one fun i hi => quiet i (by omega)]
  simp only [ask, last, Bool.false_eq_true, if_false]

theorem course_of_first (one : s.workers ≤ 1 ∨ k ≤ 1) (h : signal.FirstAt j) (le : j ≤ k + 1) :
    s.course (some signal) k = (.error (stageAt k j), ⟨countUp k (j - 1), j + 1⟩) := by
  cases j with
  | zero =>
    have yes : signal 0 = true := h.yes
    simp only [course, reading, ask, yes, if_true]
    rfl
  | succ j =>
    by_cases last : j = k
    · subst last
      have stage : stageAt j (j + 1) = .beforeResolution := by simp [stageAt]
      rw [course, reading_of_quiet one h.quiet, stage]
      simp only [ask, h.yes, if_true, Nat.add_sub_cancel]
    · obtain ⟨n, rfl⟩ : ∃ n, k = j + (n + 1) := ⟨k - j - 1, by omega⟩
      have stage : stageAt (j + (n + 1)) (j + 1) = .betweenFiles := by
        rw [stageAt, if_neg (by omega), if_pos (by omega)]
      rw [course, reading_of_first one h, stage]
      simp only [Nat.add_sub_cancel]

variable {store prepared : GrammarStore} {files : List SourceFile}

theorem run_of_quiet (h : store.prepare s.tools.unavailable = (.ok (), prepared))
    (one : s.workers ≤ 1 ∨ files.length ≤ 1) (quiet : ∀ i < files.length + 2, signal i = false) :
    (s.run (some signal) store files).result = (s.run none store files).result ∧
      (s.run (some signal) store files).trace =
        ⟨(s.run none store files).trace.progress, files.length + 2⟩ := by
  have seen : ((s.run (some signal) store files).result, (s.run (some signal) store files).trace) =
      s.observed (some signal) (store.lack? s.tools.loaders) files := run_of_prepared h
  have free : ((s.run none store files).result, (s.run none store files).trace) =
      s.observed none (store.lack? s.tools.loaders) files := run_of_prepared h
  rw [observed, course_of_quiet one quiet] at seen
  rw [observed, course_none] at free
  obtain ⟨result, trace⟩ := Prod.mk.inj seen
  obtain ⟨result', -⟩ := Prod.mk.inj free
  rw [result, result', trace, run_none_eq h]
  exact ⟨rfl, rfl⟩

theorem run_of_first (h : store.prepare s.tools.unavailable = (.ok (), prepared))
    (one : s.workers ≤ 1 ∨ files.length ≤ 1) (first : signal.FirstAt j)
    (le : j ≤ files.length + 1) :
    (s.run (some signal) store files).result = .error (.cancelled (stageAt files.length j)) ∧
      (s.run (some signal) store files).trace =
        ⟨countUp files.length (j - 1), j + 1⟩ := by
  have seen : ((s.run (some signal) store files).result, (s.run (some signal) store files).trace) =
      s.observed (some signal) (store.lack? s.tools.loaders) files := run_of_prepared h
  rw [observed, course_of_first one first le] at seen
  exact Prod.mk.inj seen

end Surveyor

/-! ## Sessions -/

/-- A run was cancelled with this text, after these progress reports and answers of the signal. -/
structure SurveyRun.Cancelled (run : SurveyRun) (text : String) (progress : List (Nat × Nat))
    (asked : Nat) : Prop where
  result : ∃ stage, run.result = .error (.cancelled stage) ∧ (Fault.cancelled stage).message = text
  progress : run.trace.progress = progress
  asked : run.trace.asked = asked

/-- A run of `k` files ends at the first yes of its signal, or else as the run without a signal. -/
structure Signal.Heeded (signal : Signal) (k : Nat) (run free : SurveyRun) : Prop where
  never : (∀ i < k + 2, signal i = false) →
    run.result = free.result ∧ run.trace = ⟨free.trace.progress, k + 2⟩
  first : signal.FirstAt 0 → run.Cancelled "Analysis cancelled before extraction" [] 1
  between : ∀ j, 1 ≤ j → j ≤ k → signal.FirstAt j →
    run.Cancelled "Analysis cancelled between files" (countUp k (j - 1)) (j + 1)
  last : signal.FirstAt (k + 1) →
    run.Cancelled "Analysis cancelled before relationship resolution" (countUp k k) (k + 2)

namespace Session

variable {s : Surveyor} {session : Session} {signal : Signal} {files : List SourceFile}

theorem cancelled_run_of_first {prepared : GrammarStore} {j : Nat}
    (h : session.store.prepare s.tools.unavailable = (.ok (), prepared))
    (one : s.workers ≤ 1 ∨ files.length ≤ 1) (first : signal.FirstAt j)
    (le : j ≤ files.length + 1) :
    (session.run s (some signal) files).1.Cancelled
      (Fault.cancelled (stageAt files.length j)).message (countUp files.length (j - 1))
        (j + 1) := by
  obtain ⟨result, trace⟩ := Surveyor.run_of_first h one first le
  rw [run_fst]
  refine ⟨⟨_, ?_, rfl⟩, ?_, ?_⟩
  · rw [result]
    rfl
  · rw [trace]
  · rw [trace]

/-- The first yes among the `k + 2` answers for which a survey of `k` files asks ends it, and no
later answer is asked for; without a yes, the survey goes as if there were no signal. -/
theorem run_heeds_signal (creatable : (session.store.prepare s.tools.unavailable).1 = .ok ())
    (one : s.workers ≤ 1 ∨ files.length ≤ 1) :
    signal.Heeded files.length (session.run s (some signal) files).1
      (session.run s none files).1 := by
  obtain ⟨prepared, h⟩ : ∃ prepared,
      session.store.prepare s.tools.unavailable = (.ok (), prepared) := ⟨_, Prod.ext creatable rfl⟩
  constructor
  · intro quiet
    obtain ⟨result, trace⟩ := Surveyor.run_of_quiet h one quiet
    simp only [run_fst, result, trace, and_self]
  · intro first
    exact cancelled_run_of_first h one first (by omega)
  · intro j pos le first
    have stage : stageAt files.length j = .betweenFiles := by
      rw [stageAt, if_neg (by omega), if_pos le]
    have cancelled := cancelled_run_of_first h one first (by omega)
    rwa [stage] at cancelled
  · intro first
    have stage : stageAt files.length (files.length + 1) = .beforeResolution := by simp [stageAt]
    have cancelled := cancelled_run_of_first h one first (Nat.le_refl _)
    rwa [stage] at cancelled

/-- The signal says yes before the third of three files, and no ever after. -/
def lapse : Signal := fun i => i == 3

theorem run_heeds_signal_lapse :
    (fresh.run bareRoots (some lapse) mixedFiles).1.Cancelled "Analysis cancelled between files"
      [(1, 3), (2, 3)] 4 := by
  have heeded : lapse.Heeded mixedFiles.length (fresh.run bareRoots (some lapse) mixedFiles).1
      (fresh.run bareRoots none mixedFiles).1 :=
    run_heeds_signal rfl (Or.inl (Nat.le_refl 1))
  exact heeded.between 3 (by decide) (by decide) ⟨by decide, by decide⟩

end Session

end CodeGraph
