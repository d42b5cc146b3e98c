import CodeGraph.Grammar.Store
import Mathlib.Data.List.Basic

/-!
# What the grammar store can give

A grammar can be had if it is kept or if its loader answers; otherwise `lack?` says why not.  Loads
and parses change what is kept but not what can be had (`lack?_load`, `lack?_parse`).  A ready store
therefore answers every request to parse as at the beginning (`parse_fst`): with `Toolbox.parsed`,
which has no state.
-/

namespace CodeGraph

namespace GrammarStore

/-- Why a grammar cannot be had, if it cannot. -/
def lack? (loaders : LoaderTable) (store : GrammarStore) (grammar : String) : Option Fault :=
  match store.kept.lookup grammar, loaders grammar with
  | some _, _ => none
  | none, none => some (.grammarUnavailable grammar "no loader registered")
  | none, some (.broken reason) => some (.grammarUnavailable grammar reason)
  | none, some .loaded => none

/-- What is kept decides together with the loaders what can be had. -/
theorem lack?_congr (loaders : LoaderTable) {store store' : GrammarStore}
    (h : store'.kept = store.kept) : store'.lack? loaders = store.lack? loaders := by
  funext grammar
  rw [lack?, lack?, h]

/-- What a load does: a grammar that is kept is given again, else the loader decides. -/
theorem load_cases (loaders : LoaderTable) (grammar : String) (store : GrammarStore) :
    (∃ number, store.kept.lookup grammar = some number ∧
      store.load loaders grammar = (.ok number, store)) ∨
    store.kept.lookup grammar = none ∧
      (loaders grammar = none ∧ store.load loaders grammar =
          (.error (.grammarUnavailable grammar "no loader registered"), store) ∨
        (∃ reason, loaders grammar = some (.broken reason) ∧ store.load loaders grammar =
          (.error (.grammarUnavailable grammar reason),
            { store with calls := store.calls ++ [grammar] })) ∨
        loaders grammar = some .loaded ∧ store.load loaders grammar =
          (.ok store.calls.length,
            { store with
              calls := store.calls ++ [grammar]
              kept := store.kept ++ [(grammar, store.calls.length)] })) := by
  unfold load
  cases store.kept.lookup grammar with
  | some number => exact Or.inl ⟨number, rfl, rfl⟩
  | none =>
    refine Or.inr ⟨rfl, ?_⟩
    cases loaders grammar with
    | none => exact Or.inl ⟨rfl, rfl⟩
    | some answer =>
      cases answer with
      | broken reason => exact Or.inr (Or.inl ⟨reason, rfl, rfl⟩)
      | loaded => exact Or.inr (Or.inr ⟨rfl, rfl⟩)

theorem load_fst_of_lack?_eq_none {loaders : LoaderTable} {store : GrammarStore} {grammar : String}
    (h : store.lack? loaders grammar = none) :
    ∃ number, (store.load loaders grammar).1 = .ok number := by
  unfold lack? at h
  rcases load_cases loaders grammar store with
    ⟨number, -, eq⟩ | ⟨missing, ⟨absent, -⟩ | ⟨reason, broken, -⟩ | ⟨-, eq⟩⟩
  · exact ⟨number, by rw [eq]⟩
  · simp [missing, absent] at h
  · simp [missing, broken] at h
  · exact ⟨_, by rw [eq]⟩

theorem load_fst_of_lack?_eq_some {loaders : LoaderTable} {store : GrammarStore} {grammar : String}
    {f : Fault} (h : store.lack? loaders grammar = some f) :
    (store.load loaders grammar).1 = .error f := by
  unfold lack? at h
  rcases load_cases loaders grammar store with
    ⟨number, found, -⟩ | ⟨missing, ⟨absent, eq⟩ | ⟨reason, broken, eq⟩ | ⟨loads, -⟩⟩
  · simp [found] at h
  · rw [missing, absent] at h
    rw [eq, Option.some.inj h]
  · rw [missing, broken] at h
    rw [eq, Option.some.inj h]
  · simp [missing, loads] at h

/-- A load adds a grammar only if it could be had before. -/
theorem kept_load (loaders : LoaderTable) (grammar : String) (store : GrammarStore) :
    (store.load loaders grammar).2.kept = store.kept ∨
      loaders grammar = some .loaded ∧ ∃ number,
        (store.load loaders grammar).2.kept = store.kept ++ [(grammar, number)] := by
  rcases load_cases loaders grammar store with
    ⟨_, -, eq⟩ | ⟨-, ⟨-, eq⟩ | ⟨_, -, eq⟩ | ⟨loads, eq⟩⟩ <;> rw [eq]
  · exact Or.inl rfl
  · exact Or.inl rfl
  · exact Or.inl rfl
  · exact Or.inr ⟨loads, _, rfl⟩

@[simp]
theorem lack?_load (loaders : LoaderTable) (grammar : String) (store : GrammarStore) :
    (store.load loaders grammar).2.lack? loaders = store.lack? loaders := by
  rcases kept_load loaders grammar store with h | ⟨loads, number, h⟩
  · exact lack?_congr loaders h
  · funext other
    rw [lack?, lack?, h, List.lookup_append]
    by_cases same : other = grammar
    · subst same
      cases store.kept.lookup other <;> simp [loads]
    · have : [(grammar, number)].lookup other = none := by
        rw [List.lookup_cons, beq_false_of_ne same, List.lookup_nil]
      rw [this, Option.or_none]

@[simp]
theorem ready_load (loaders : LoaderTable) (grammar : String) (store : GrammarStore) :
    (store.load loaders grammar).2.ready = store.ready := by
  rcases load_cases loaders grammar store with
    ⟨_, -, eq⟩ | ⟨-, ⟨-, eq⟩ | ⟨_, -, eq⟩ | ⟨-, eq⟩⟩ <;> rw [eq]

theorem prepare_of_ready {unavailable : Option String} {store : GrammarStore}
    (h : store.ready = true) : store.prepare unavailable = (.ok (), store) := by
  unfold prepare
  rw [if_pos h]

theorem prepare_of_true {unavailable : Option String} {store : GrammarStore}
    (h : (store.ready || unavailable.isNone) = true) :
    store.prepare unavailable = (.ok (), { store with ready := true }) := by
  rcases store with ⟨ready, kept, calls⟩
  cases ready with
  | true => rfl
  | false =>
    cases unavailable with
    | none => rfl
    | some reason => cases h

theorem prepare_of_false {unavailable : Option String} {store : GrammarStore}
    (h : (store.ready || unavailable.isNone) = false) :
    ∃ reason, store.prepare unavailable = (.error (.parsingUnavailable reason), store) := by
  obtain ⟨ready, none⟩ := Bool.or_eq_false_iff.1 h
  cases unavailable with
  | none => cases none
  | some reason => exact ⟨reason, by simp [prepare, ready]⟩

theorem prepare_of_available {unavailable : Option String} (h : unavailable = none)
    (store : GrammarStore) : ∃ after, store.prepare unavailable = (.ok (), after) :=
  ⟨_, prepare_of_true (by rw [h, Option.isNone_none, Bool.or_true])⟩

/-- Where a parser can be made, the store becomes ready and nothing else changes. -/
theorem prepare_of_ok {unavailable : Option String} {store after : GrammarStore}
    (h : store.prepare unavailable = (.ok (), after)) :
    after.ready = true ∧ after.kept = store.kept := by
  cases made : store.ready || unavailable.isNone with
  | true =>
    rw [prepare_of_true made] at h
    cases h
    exact ⟨rfl, rfl⟩
  | false =>
    obtain ⟨reason, failed⟩ := prepare_of_false made
    rw [failed] at h
    cases h

theorem prepare_of_error {unavailable : Option String} {store after : GrammarStore} {f : Fault}
    (h : store.prepare unavailable = (.error f, after)) : after = store := by
  cases made : store.ready || unavailable.isNone with
  | true =>
    rw [prepare_of_true made] at h
    cases h
  | false =>
    obtain ⟨reason, failed⟩ := prepare_of_false made
    rw [failed] at h
    cases h
    rfl

/-- A parse prepares the store first. -/
theorem parse_of_prepared {tools : Toolbox} {store after : GrammarStore}
    (h : store.prepare tools.unavailable = (.ok (), after)) (path content : String)
    (grammar : Option String) :
    store.parse tools path content grammar = after.parse tools path content grammar := by
  have ready := (prepare_of_ok h).1
  rw [parse, parse, h, prepare_of_ready ready]

end GrammarStore

/-- The answer to a request to parse a file, with the grammars that can be had. -/
def Toolbox.parsed (tools : Toolbox) (lack? : String → Option Fault) (path content : String) :
    Except Fault ParsedFile :=
  match tools.table.language path with
  | none => .error (.unsupportedFile path)
  | some language =>
    let grammar := ExtensionTable.grammarOf language path
    match lack? grammar with
    | some f => .error f
    | none =>
      GrammarStore.accept tools.strict path content language grammar (tools.parser grammar content)

theorem GrammarStore.accept_eq_ok {strict : Bool} {path content grammar : String}
    {language : Language} {answer : ParseAnswer} {file : ParsedFile}
    (h : accept strict path content language grammar answer = .ok file) :
    file.path = path ∧ ∃ hasError, answer = .tree file.tree hasError := by
  cases answer with
  | broken reason => cases h
  | nothing => cases h
  | tree root hasError =>
    simp only [accept] at h
    split_ifs at h
    cases h
    exact ⟨rfl, hasError, rfl⟩

/-- A parsed file has the path that was asked for and a tree that the parser gave. -/
theorem Toolbox.parsed_eq_ok {tools : Toolbox} {lack? : String → Option Fault}
    {path content : String} {file : ParsedFile} (h : tools.parsed lack? path content = .ok file) :
    file.path = path ∧
      ∃ grammar hasError, tools.parser grammar content = .tree file.tree hasError := by
  unfold parsed at h
  split at h
  · cases h
  · dsimp only at h
    split at h
    · cases h
    · obtain ⟨samePath, hasError, answered⟩ := GrammarStore.accept_eq_ok h
      exact ⟨samePath, _, hasError, answered⟩

/-- The bytes of a parsed file are those of its text. -/
theorem Toolbox.source_of_parsed {tools : Toolbox} {lack? : String → Option Fault}
    {path content : String} {file : ParsedFile} (h : tools.parsed lack? path content = .ok file) :
    file.source = Text.Utf8.encode content.toList := by
  unfold parsed at h
  split at h
  · cases h
  · dsimp only at h
    split at h
    · cases h
    · unfold GrammarStore.accept at h
      split at h
      · cases h
      · cases h
      · split_ifs at h
        cases h
        rfl

namespace GrammarStore

variable (tools : Toolbox) (path content : String) {store : GrammarStore}

/-- A ready store parses a file by loading the grammar of its path. -/
theorem parse_of_ready (h : store.ready = true) :
    store.parse tools path content none =
      match tools.table.language path with
      | none => (.error (.unsupportedFile path), store)
      | some language =>
        let grammar := ExtensionTable.grammarOf language path
        match store.load tools.loaders grammar with
        | (.error f, store) => (.error f, store)
        | (.ok _, store) =>
          (accept tools.strict path content language grammar (tools.parser grammar content),
            store) := by
  rw [parse, prepare_of_ready h]
  rfl

theorem parse_fst (h : store.ready = true) :
    (store.parse tools path content none).1 =
      tools.parsed (store.lack? tools.loaders) path content := by
  rw [parse_of_ready tools path content h, Toolbox.parsed]
  cases tools.table.language path with
  | none => rfl
  | some language =>
    dsimp only
    cases hlack : store.lack? tools.loaders (ExtensionTable.grammarOf language path) with
    | some f =>
      have := load_fst_of_lack?_eq_some hlack
      rcases hload : store.load tools.loaders (ExtensionTable.grammarOf language path) with ⟨r, s⟩
      rw [hload] at this
      subst this
      rfl
    | none =>
      obtain ⟨number, this⟩ := load_fst_of_lack?_eq_none hlack
      rcases hload : store.load tools.loaders (ExtensionTable.grammarOf language path) with ⟨r, s⟩
      rw [hload] at this
      subst this
      rfl

/-- A parse leaves a store that only a load has changed, if anything. -/
theorem parse_snd (h : store.ready = true) :
    (store.parse tools path content none).2 = store ∨
      ∃ grammar,
        (store.parse tools path content none).2 = (store.load tools.loaders grammar).2 := by
  rw [parse_of_ready tools path content h]
  cases tools.table.language path with
  | none => exact Or.inl rfl
  | some language =>
    refine Or.inr ⟨ExtensionTable.grammarOf language path, ?_⟩
    dsimp only
    rcases store.load tools.loaders (ExtensionTable.grammarOf language path) with ⟨r, s⟩
    cases r <;> rfl

theorem ready_parse (h : store.ready = true) :
    (store.parse tools path content none).2.ready = true := by
  rcases parse_snd tools path content h with same | ⟨grammar, loaded⟩
  · rwa [same]
  · rwa [loaded, ready_load]

theorem lack?_parse (h : store.ready = true) :
    (store.parse tools path content none).2.lack? tools.loaders = store.lack? tools.loaders := by
  rcases parse_snd tools path content h with same | ⟨grammar, loaded⟩
  · rw [same]
  · simp [loaded]

/-- What a step does to the store is what its request does. -/
theorem step_snd (tools : Toolbox) (store : GrammarStore) (step : GrammarStep) :
    (step.run tools store).2 =
      match step with
      | .prepare => (store.prepare tools.unavailable).2
      | .cleanup => store.cleanup
      | .load grammar => (store.load tools.loaders grammar).2
      | .parse path content grammar => (store.parse tools path content grammar).2 := by
  cases step with
  | prepare =>
    rcases h : store.prepare tools.unavailable with ⟨_ | _, after⟩ <;>
      simp only [GrammarStep.run, h]
  | cleanup => rfl
  | load grammar =>
    rcases h : store.load tools.loaders grammar with ⟨_ | _, after⟩ <;>
      simp only [GrammarStep.run, h]
  | parse path content grammar =>
    rcases h : store.parse tools path content grammar with ⟨_ | _, after⟩ <;>
      simp only [GrammarStep.run, h]

end GrammarStore

end CodeGraph
