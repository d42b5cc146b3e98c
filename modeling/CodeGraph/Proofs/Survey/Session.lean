import CodeGraph.Proofs.Link.Finder
import CodeGraph.Proofs.Survey.Course
import CodeGraph.Survey.Session

/-!
# Surveys do not depend on what was done before

In a session the store keeps only grammars that load, and is ready only if a parser can be made; the
finder keeps only the searches of their names.  Every step keeps it so (`Sound.step`), so it is so
after every history (`sound_after`), and a survey then ends and is seen as the first one of a
session (`run_after`).
-/

namespace CodeGraph

/-! ## The store -/

/-- A store that was used with these tools alone. -/
structure GrammarStore.Sound (tools : Toolbox) (store : GrammarStore) : Prop where
  ready : store.ready = true → tools.unavailable = none
  kept : ∀ grammar number, store.kept.lookup grammar = some number →
    tools.loaders grammar = some .loaded

namespace GrammarStore

variable {tools : Toolbox} {store : GrammarStore}

theorem sound_empty (tools : Toolbox) : Sound tools empty where
  ready ready := by cases ready
  kept _ _ found := by cases found

/-- What can be had is what could be had at the beginning. -/
theorem Sound.lack? (h : store.Sound tools) :
    store.lack? tools.loaders = empty.lack? tools.loaders := by
  funext grammar
  unfold GrammarStore.lack?
  cases found : store.kept.lookup grammar with
  | none => rfl
  | some number => rw [h.kept grammar number found]; rfl

theorem Sound.prepare_of_unavailable (h : store.Sound tools) {reason : String}
    (missing : tools.unavailable = some reason) :
    store.prepare tools.unavailable = (.error (.parsingUnavailable reason), store) := by
  have unready : ¬store.ready = true := by
    intro ready
    rw [h.ready ready] at missing
    cases missing
  unfold GrammarStore.prepare
  rw [if_neg unready, missing]

theorem Sound.prepare (h : store.Sound tools) :
    (store.prepare tools.unavailable).2.Sound tools := by
  unfold GrammarStore.prepare
  split_ifs
  · exact h
  · cases available : tools.unavailable with
    | none => exact ⟨fun _ => available, h.kept⟩
    | some reason => exact h

theorem sound_cleanup (tools : Toolbox) (store : GrammarStore) : store.cleanup.Sound tools where
  ready ready := by cases ready
  kept _ _ found := by cases found

theorem Sound.load (h : store.Sound tools) (grammar : String) :
    (store.load tools.loaders grammar).2.Sound tools := by
  refine ⟨fun ready => h.ready (by rwa [ready_load] at ready), fun other number found => ?_⟩
  rcases kept_load tools.loaders grammar store with same | ⟨loads, number', same⟩
  · rw [same] at found
    exact h.kept other number found
  · rw [same, List.lookup_append, lookup_cons_ite] at found
    rcases Option.or_eq_some_iff.1 found with found | ⟨-, found⟩
    · exact h.kept other number found
    · split_ifs at found with eq
      · rw [eq, loads]
      · cases found

/-- A parse prepares the store and, if it comes that far, loads a grammar. -/
theorem Sound.parse (h : store.Sound tools) (path content : String) (grammar : Option String) :
    (store.parse tools path content grammar).2.Sound tools := by
  have prepared := h.prepare
  unfold GrammarStore.parse
  generalize store.prepare tools.unavailable = answer at prepared ⊢
  obtain ⟨_ | _, after⟩ := answer
  · exact prepared
  · cases tools.table.language path with
    | none => exact prepared
    | some language =>
      have loaded := prepared.load
        ((filled? grammar).getD (ExtensionTable.grammarOf language path))
      dsimp only at loaded ⊢
      generalize after.load tools.loaders _ = answer at loaded ⊢
      obtain ⟨_ | _, last⟩ := answer
      · exact loaded
      · exact loaded

theorem Sound.step (h : store.Sound tools) (step : GrammarStep) :
    (step.run tools store).2.Sound tools := by
  rw [step_snd]
  cases step with
  | prepare => exact h.prepare
  | cleanup => exact sound_cleanup tools store
  | load grammar => exact h.load grammar
  | parse path content grammar => exact h.parse path content grammar

end GrammarStore

/-! ## Surveys -/

namespace Surveyor

variable {s : Surveyor} {signal : Option Signal} {store : GrammarStore}

theorem sound_survey (h : store.Sound s.tools) (file : SourceFile) :
    (s.survey store file).2.Sound s.tools := by
  unfold survey
  cases s.reader? file.path with
  | none => exact h
  | some reader => exact h.parse file.path file.content none

theorem sound_surveyAll (h : store.Sound s.tools) (files : List SourceFile) :
    (s.surveyAll store files).2.Sound s.tools := by
  induction files generalizing store with
  | nil => exact h
  | cons file rest ih => exact ih (sound_survey h file)

theorem sound_sequentially (h : store.Sound s.tools) (total done : Nat) (trace : Trace)
    (files : List SourceFile) :
    (s.sequentially signal total done store trace files).2.2.Sound s.tools := by
  induction files generalizing done store trace with
  | nil => exact h
  | cons file rest ih =>
    unfold sequentially
    dsimp only
    split_ifs
    · exact h
    · have later := ih (sound_survey h file) (done + 1)
        ⟨trace.progress ++ [(done + 1, total)], (ask signal trace.asked).2⟩
      generalize s.sequentially signal total (done + 1) _ _ rest = read at later ⊢
      obtain ⟨_ | _, last⟩ := read
      · exact later
      · exact later

theorem sound_readAll (h : store.Sound s.tools) (files : List SourceFile) :
    (s.readAll signal store files).2.2.Sound s.tools := by
  unfold readAll
  dsimp only
  split_ifs
  · exact h
  · exact sound_sequentially h _ _ _ files
  · exact sound_surveyAll h files

/-- A survey ends and is seen as one that starts with nothing in the store. -/
theorem run_of_sound (h : store.Sound s.tools) (signal : Option Signal) (files : List SourceFile) :
    ((s.run signal store files).result, (s.run signal store files).trace) =
      ((s.run signal .empty files).result, (s.run signal .empty files).trace) := by
  have fresh := GrammarStore.sound_empty s.tools
  cases missing : s.tools.unavailable with
  | none =>
    obtain ⟨after, prepared⟩ := GrammarStore.prepare_of_available missing store
    obtain ⟨after', prepared'⟩ := GrammarStore.prepare_of_available missing .empty
    rw [run_of_prepared prepared, run_of_prepared prepared', h.lack?]
  | some reason =>
    rw [run_of_unprepared (h.prepare_of_unavailable missing),
      run_of_unprepared (fresh.prepare_of_unavailable missing)]

end Surveyor

/-! ## Sessions -/

namespace Session

/-- What lasts in the session came of the surveyor's own tools. -/
structure Sound (s : Surveyor) (session : Session) : Prop where
  store : session.store.Sound s.tools
  searches : session.finder.searches.Sound

variable {s : Surveyor} {session : Session}

theorem sound_fresh (s : Surveyor) : Sound s fresh :=
  ⟨GrammarStore.sound_empty s.tools, SearchTable.sound_nil⟩

/-- The result of a survey with the links that the finder of the session finds. -/
def relink (s : Surveyor) (session : Session) (files : List SourceFile) (r : SurveyResult) :
    SurveyResult :=
  { r with links := (session.finder.resolve s.table r.declarations files).1 }

/-- A survey in a session is the survey with its store, but for who finds the links. -/
theorem run_fst (s : Surveyor) (session : Session) (signal : Option Signal)
    (files : List SourceFile) :
    (session.run s signal files).1 =
      { s.run signal session.store files with
        result := (s.run signal session.store files).result.map (session.relink s files) } := by
  unfold run Surveyor.run
  rcases session.store.prepare s.tools.unavailable with ⟨_ | _, after⟩
  · rfl
  · dsimp only
    rcases s.readAll signal after files with ⟨_ | outcomes, trace, last⟩
    · rfl
    · dsimp only
      split_ifs <;> rfl

/-- The finder makes no difference either. -/
theorem Sound.run_fst (h : session.Sound s) (signal : Option Signal) (files : List SourceFile) :
    (session.run s signal files).1 = s.run signal session.store files := by
  have relinked : (s.run signal session.store files).result.map (session.relink s files) =
      (s.run signal session.store files).result := by
    rcases hr : (s.run signal session.store files).result with f | r
    · rfl
    · obtain ⟨-, rfl⟩ := Surveyor.run_eq_ok hr
      simp only [Except.map, relink, (LinkFinder.resolve_eq h.searches s.table _ files).1]
      rfl
  rw [Session.run_fst, relinked]

theorem Sound.run_snd (h : session.Sound s) (signal : Option Signal) (files : List SourceFile) :
    (session.run s signal files).2.Sound s := by
  have prepared := h.store.prepare
  unfold run
  generalize session.store.prepare s.tools.unavailable = answer at prepared ⊢
  obtain ⟨_ | _, after⟩ := answer
  · exact ⟨prepared, h.searches⟩
  · have read : (s.readAll signal after files).2.2.Sound s.tools :=
      Surveyor.sound_readAll prepared files
    dsimp only
    generalize s.readAll signal after files = answer at read ⊢
    obtain ⟨_ | outcomes, trace, last⟩ := answer
    · exact ⟨read, h.searches⟩
    · dsimp only
      split_ifs
      · exact ⟨read, h.searches⟩
      · exact ⟨read, (LinkFinder.resolve_eq h.searches s.table _ files).2⟩

theorem Sound.step (h : session.Sound s) (step : SessionStep) : (session.step s step).Sound s := by
  cases step with
  | store step => exact ⟨h.store.step step, h.searches⟩
  | survey file => exact ⟨Surveyor.sound_survey h.store file, h.searches⟩
  | resolve ds files => exact ⟨h.store, (LinkFinder.resolve_eq h.searches s.table ds files).2⟩
  | run signal files => exact h.run_snd signal files

theorem sound_after (s : Surveyor) (history : List SessionStep) : (after s history).Sound s := by
  have run (history : List SessionStep) {session : Session} (h : session.Sound s) :
      (history.foldl (step s) session).Sound s := by
    induction history generalizing session with
    | nil => exact h
    | cons step history ih => exact ih (h.step step)
  exact run history (sound_fresh s)

/-- Whatever was done before in a session, a survey gives the result or the fault that it gives as
the first step of a session, and is seen to go the same way. -/
theorem run_after (s : Surveyor) (history : List SessionStep) (signal : Option Signal)
    (files : List SourceFile) :
    ((after s history).run s signal files).1.result = (fresh.run s signal files).1.result ∧
      ((after s history).run s signal files).1.trace = (fresh.run s signal files).1.trace := by
  have sound := sound_after s history
  rw [sound.run_fst, (sound_fresh s).run_fst]
  exact Prod.mk.inj (Surveyor.run_of_sound sound.store signal files)

end Session

end CodeGraph
