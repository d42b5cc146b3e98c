import CodeGraph.Proofs.Survey.Outcomes

/-!
# The course of a survey

Whether a survey is cancelled, where, and what is seen of it meanwhile depend on the cancel signal
and on the number of files alone (`Surveyor.course`): it makes no difference what the files hold or
what comes of them.  A survey that takes its course to the end gives the result of the outcomes of
its files (`run_result`, `run_trace`).
-/

namespace CodeGraph

/-- A course that, if it leads to the end, yields some outcomes. -/
def yielding (outcomes : List FileOutcome) (course : Except Stage Unit × Trace) :
    Except Stage (List FileOutcome) × Trace :=
  (course.1.map fun _ => outcomes, course.2)

/-- How `n` more of `total` files are read one by one when `done` are finished. -/
def pace (signal : Option Signal) (total : Nat) : Nat → Nat → Trace → Except Stage Unit × Trace
  | 0, _, trace => (.ok (), trace)
  | n + 1, done, trace =>
    let (cancelled, asked) := ask signal trace.asked
    if cancelled then (.error .betweenFiles, { trace with asked })
    else pace signal total n (done + 1) ⟨trace.progress ++ [(done + 1, total)], asked⟩

namespace Collection

/-- Two collections wait for the same files and look the same from outside. -/
structure Alike (c c' : Collection) : Prop where
  pending : c.pending = c'.pending
  completed : c.completed = c'.completed
  trace : c.trace = c'.trace

variable {carried carried' : Nat → Option FileOutcome} {total : Nat} {c c' : Collection}

theorem Alike.take (h : Alike c c') (place : Nat) :
    Alike (c.take carried total place) (c'.take carried' total place) := by
  obtain ⟨pending, completed, trace⟩ := h
  constructor
  · simp only [Collection.take, pending]
  · simp only [Collection.take, completed]
  · simp only [Collection.take, completed, trace]

theorem Alike.takeAll (h : Alike c c') (batch : List Nat) :
    Alike (batch.foldl (Collection.take carried total) c)
      (batch.foldl (Collection.take carried' total) c') := by
  induction batch generalizing c c' with
  | nil => exact h
  | cons place batch ih => exact ih (h.take place)

theorem Alike.retrace (h : Alike c c') (trace : Trace) :
    Alike { c with trace } { c' with trace } :=
  ⟨h.pending, h.completed, rfl⟩

/-- What the files carry makes no difference to when a collection ends. -/
theorem alike_run (carried carried' : Nat → Option FileOutcome) (signal : Option Signal)
    (schedule : List (List Nat)) (h : Alike c c') :
    (run carried total signal schedule c).1 = (run carried' total signal schedule c').1 ∧
      Alike (run carried total signal schedule c).2 (run carried' total signal schedule c').2 := by
  induction schedule generalizing c c' with
  | nil => exact ⟨rfl, h⟩
  | cons batch schedule ih =>
    have taken : Alike (batch.foldl (Collection.take carried total) c)
      (batch.foldl (Collection.take carried' total) c') := h.takeAll batch
    rw [run, run, ← h.pending]
    generalize batch.foldl (Collection.take carried total) c = d at taken
    generalize batch.foldl (Collection.take carried' total) c' = d' at taken
    have last : d'.pending.isEmpty = d.pending.isEmpty := by rw [taken.pending]
    simp only [last, ← taken.trace]
    split_ifs with finished last cancelled
    · exact ⟨rfl, h⟩
    · exact ih taken
    · exact ⟨rfl, taken.retrace _⟩
    · exact ih (taken.retrace _)

end Collection

/-- How a collection of `total` files that finish as the schedule says goes. -/
def Collection.pace (signal : Option Signal) (total : Nat) (schedule : List (List Nat))
    (trace : Trace) : Except Stage Unit × Trace :=
  let ended := run (fun _ => none) total signal schedule (.start total trace)
  (ended.1, ended.2.trace)

/-- A collection gives all outcomes unless it is cancelled, which does not depend on them. -/
theorem collect_eq {outcomes : List FileOutcome} {schedule : List (List Nat)}
    (hs : IsSchedule outcomes.length schedule) (signal : Option Signal) (trace : Trace) :
    collect outcomes signal schedule trace =
      yielding outcomes (Collection.pace signal outcomes.length schedule trace) := by
  have start : Collection.Alike (.start outcomes.length trace) (.start outcomes.length trace) :=
    ⟨rfl, rfl, rfl⟩
  obtain ⟨ended, alike⟩ :=
    Collection.alike_run (outcomes[·]?) (fun _ => none) signal schedule start
  have complete (collected : List FileOutcome) :
      (collect outcomes signal schedule trace).1 = .ok collected → collected = outcomes :=
    collect_eq_ok hs
  rw [yielding, Collection.pace]
  dsimp only
  rw [← ended, ← alike.trace]
  unfold collect at complete ⊢
  dsimp only at complete ⊢
  generalize Collection.run (outcomes[·]?) outcomes.length signal schedule
    (.start outcomes.length trace) = run at complete ⊢
  obtain ⟨_ | _, c⟩ := run
  · rfl
  · rw [← complete _ rfl]
    rfl

namespace Surveyor

variable (s : Surveyor)

/-- How `n` files are read. -/
def reading (signal : Option Signal) (n : Nat) : Except Stage Unit × Trace :=
  let (cancelled, asked) := ask signal 0
  if cancelled then (.error .beforeExtraction, ⟨[], asked⟩)
  else if s.workers ≤ 1 ∨ n ≤ 1 then pace signal n n 0 ⟨[], asked⟩
  else Collection.pace signal n (inOrder n) ⟨[], asked⟩

/-- How a survey of `n` files goes: the stage at which it is cancelled, if it is, and what is seen
of it. -/
def course (signal : Option Signal) (n : Nat) : Except Stage Unit × Trace :=
  match s.reading signal n with
  | (.error stage, trace) => (.error stage, trace)
  | (.ok (), trace) =>
    let (cancelled, asked) := ask signal trace.asked
    (if cancelled then .error .beforeResolution else .ok (), { trace with asked })

variable {s} {signal : Option Signal} {store : GrammarStore} {files : List SourceFile}

theorem outcomes_cons (h : store.ready = true) (file : SourceFile) :
    s.outcomes (store.lack? s.tools.loaders) (file :: files) =
      (s.survey store file).1 :: s.outcomes (store.lack? s.tools.loaders) files := by
  rw [survey_fst h]
  rfl

theorem sequentially_eq (h : store.ready = true) (total done : Nat) (trace : Trace) :
    ((s.sequentially signal total done store trace files).1,
        (s.sequentially signal total done store trace files).2.1) =
      yielding (s.outcomes (store.lack? s.tools.loaders) files)
        (pace signal total files.length done trace) := by
  induction files generalizing done store trace with
  | nil => rfl
  | cons file rest ih =>
    obtain ⟨ready, same⟩ := survey_snd (s := s) h file
    rw [outcomes_cons h]
    unfold sequentially
    rw [List.length_cons, pace]
    dsimp only
    split_ifs with cancelled
    · rfl
    · have later := ih ready (done + 1)
        ⟨trace.progress ++ [(done + 1, total)], (ask signal trace.asked).2⟩
      rw [same] at later
      generalize pace signal total rest.length (done + 1) _ = paced at later ⊢
      generalize s.sequentially signal total (done + 1) (s.survey store file).2 _ rest = read
        at later ⊢
      obtain ⟨result, seen, after⟩ := read
      obtain ⟨_ | _, trace'⟩ := paced
      · obtain ⟨same, rfl⟩ := Prod.mk.inj later
        obtain rfl : result = .error _ := same
        rfl
      · obtain ⟨same, rfl⟩ := Prod.mk.inj later
        obtain rfl : result = .ok _ := same
        rfl

theorem inParallel_eq (h : store.ready = true) (trace : Trace) :
    ((s.inParallel signal (inOrder files.length) store trace files).1,
        (s.inParallel signal (inOrder files.length) store trace files).2.1) =
      yielding (s.outcomes (store.lack? s.tools.loaders) files)
        (Collection.pace signal files.length (inOrder files.length) trace) := by
  have length : (s.outcomes (store.lack? s.tools.loaders) files).length = files.length :=
    length_outcomes _ files
  unfold inParallel
  dsimp only
  rw [surveyAll_fst h, ← length]
  exact collect_eq (isSchedule_inOrder _) signal trace

theorem readAll_eq (h : store.ready = true) :
    ((s.readAll signal store files).1, (s.readAll signal store files).2.1) =
      yielding (s.outcomes (store.lack? s.tools.loaders) files)
        (s.reading signal files.length) := by
  unfold readAll reading
  dsimp only
  split_ifs with cancelled one
  · rfl
  · exact sequentially_eq h _ _ _
  · exact inParallel_eq h _

theorem pace_none (total n done : Nat) (trace : Trace) :
    (pace none total n done trace).1 = .ok () := by
  induction n generalizing done trace with
  | zero => rfl
  | succ n ih => exact ih (done + 1) _

/-- Without a signal every survey goes to the end. -/
theorem course_none (s : Surveyor) (n : Nat) : (s.course none n).1 = .ok () := by
  have reading : (s.reading none n).1 = .ok () := by
    unfold reading
    simp only [ask, Bool.false_eq_true, if_false]
    split_ifs
    · exact pace_none n n 0 _
    · exact Collection.run_none
  unfold course
  generalize s.reading none n = read at reading ⊢
  obtain ⟨_ | _, trace⟩ := read
  · cases reading
  · rfl

/-- What comes of a file by itself where a parser can be made. -/
theorem survey_of_prepared {after : GrammarStore}
    (h : store.prepare s.tools.unavailable = (.ok (), after)) (file : SourceFile) :
    (s.survey store file).1 = ⟨file.path, s.outcome (store.lack? s.tools.loaders) file⟩ := by
  obtain ⟨ready, kept⟩ := GrammarStore.prepare_of_ok h
  rw [← GrammarStore.lack?_congr s.tools.loaders kept]
  unfold survey outcome
  cases s.reader? file.path with
  | none => rfl
  | some reader =>
    rw [← GrammarStore.parse_fst s.tools file.path file.content ready,
      ← GrammarStore.parse_of_prepared h]

/-- What a survey of the files gives and shows, with the grammars that can be had. -/
def observed (s : Surveyor) (signal : Option Signal) (lack? : String → Option Fault)
    (files : List SourceFile) : Except Fault SurveyResult × Trace :=
  (((s.course signal files.length).1.mapError .cancelled).map fun _ =>
      .of s.table files (s.outcomes lack? files),
    (s.course signal files.length).2)

/-- A survey that can start takes its course, and gives the result of the outcomes if that leads
to the end. -/
theorem run_of_prepared {after : GrammarStore}
    (h : store.prepare s.tools.unavailable = (.ok (), after)) :
    ((s.run signal store files).result, (s.run signal store files).trace) =
      s.observed signal (store.lack? s.tools.loaders) files := by
  obtain ⟨ready, kept⟩ := GrammarStore.prepare_of_ok h
  have read : ((s.readAll signal after files).1, (s.readAll signal after files).2.1) =
      yielding (s.outcomes (after.lack? s.tools.loaders) files) (s.reading signal files.length) :=
    readAll_eq ready
  rw [← GrammarStore.lack?_congr s.tools.loaders kept]
  unfold run observed course
  rw [h]
  dsimp only
  generalize s.readAll signal after files = answer at read ⊢
  generalize s.reading signal files.length = reading at read ⊢
  obtain ⟨result, trace, last⟩ := answer
  obtain ⟨_ | _, trace'⟩ := reading
  · obtain ⟨same, rfl⟩ := Prod.mk.inj read
    obtain rfl : result = .error _ := same
    rfl
  · obtain ⟨same, rfl⟩ := Prod.mk.inj read
    obtain rfl : result = .ok _ := same
    dsimp only
    split_ifs
    · rfl
    · rfl

theorem run_of_unprepared {f : Fault} {after : GrammarStore}
    (h : store.prepare s.tools.unavailable = (.error f, after)) :
    ((s.run signal store files).result, (s.run signal store files).trace) =
      (.error f, ⟨[], 0⟩) := by
  unfold run
  rw [h]

end Surveyor

end CodeGraph
