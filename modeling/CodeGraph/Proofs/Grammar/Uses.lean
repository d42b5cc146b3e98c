import CodeGraph.Proofs.Survey.Store

/-!
# Uses of the grammar store

A use is a step together with what it finds outside: whether a parser can be made, and the parser.
Except for a cleanup, a use does two things to a store: the store may become ready, and it may come
to load one grammar (`StoreUse.run_snd`).  What both of them keep, every such use keeps
(`StoreUse.run_keeps`), and so does a stretch of uses without a cleanup
(`GrammarStore.after_keeps`).
-/

namespace CodeGraph

/-- A step, and what it finds outside. -/
structure StoreUse where
  step : GrammarStep
  /-- The reason why no parser can be made, if none can. -/
  unavailable : Option String
  parser : Parser

namespace StoreUse

def run (tools : Toolbox) (store : GrammarStore) (use : StoreUse) : GrammarAnswer × GrammarStore :=
  use.step.run { tools with unavailable := use.unavailable, parser := use.parser } store

def isCleanup (use : StoreUse) : Bool :=
  match use.step with
  | .cleanup => true
  | _ => false

/-- The step begins with a parser. -/
def asksParser (use : StoreUse) : Bool :=
  match use.step with
  | .prepare | .parse .. => true
  | .cleanup | .load _ => false

/-- The step begins with a parser, and one can be made. -/
def opens (use : StoreUse) : Bool := use.asksParser && use.unavailable.isNone

/-- The grammar that the use comes to load, in a store that is ready or not. -/
def reaches? (table : ExtensionTable) (ready : Bool) (use : StoreUse) : Option String :=
  match use.step with
  | .prepare | .cleanup => none
  | .load grammar => some grammar
  | .parse path _ grammar =>
    if ready || use.opens then
      (table.language path).map fun language =>
        (filled? grammar).getD (ExtensionTable.grammarOf language path)
    else none

/-- The use comes to load the grammar, and the load gives it with this number. -/
def Gets (tools : Toolbox) (store : GrammarStore) (use : StoreUse) (grammar : String)
    (number : Nat) : Prop :=
  use.reaches? tools.table store.ready = some grammar ∧
    (store.load tools.loaders grammar).1 = .ok number

/-- The use asks for a parser and is not told that there is none. -/
def Passes (tools : Toolbox) (store : GrammarStore) (use : StoreUse) : Prop :=
  use.asksParser = true ∧
    ∀ reason, (use.run tools store).1 ≠ .fault (.parsingUnavailable reason)

end StoreUse

/-- The store after some uses. -/
def GrammarStore.after (tools : Toolbox) (store : GrammarStore) (uses : List StoreUse) :
    GrammarStore :=
  uses.foldl (fun store use => (use.run tools store).2) store

/-! ## One use -/

namespace GrammarStore

theorem prepare_snd (unavailable : Option String) (store : GrammarStore) :
    (store.prepare unavailable).2 = { store with ready := store.ready || unavailable.isNone } := by
  cases h : store.ready || unavailable.isNone with
  | true => rw [prepare_of_true h]
  | false =>
    obtain ⟨reason, failed⟩ := prepare_of_false h
    rw [failed, ← (Bool.or_eq_false_iff.1 h).1]

theorem load_fst_ne (loaders : LoaderTable) (grammar : String) (store : GrammarStore)
    (reason : String) : (store.load loaders grammar).1 ≠ .error (.parsingUnavailable reason) := by
  rcases load_cases loaders grammar store with
    ⟨_, -, h⟩ | ⟨-, ⟨-, h⟩ | ⟨_, -, h⟩ | ⟨-, h⟩⟩ <;> simp [h]

theorem accept_ne (strict : Bool) (path content : String) (language : Language) (grammar : String)
    (answer : ParseAnswer) (reason : String) :
    accept strict path content language grammar answer ≠ .error (.parsingUnavailable reason) := by
  cases answer with
  | broken | nothing => simp [accept]
  | tree root hasError =>
    dsimp only [accept]
    split_ifs <;> simp

/-- Once a parser can be made, no fault of a parse says that none can. -/
theorem parse_fst_ne {tools : Toolbox} {store : GrammarStore}
    (h : (store.ready || tools.unavailable.isNone) = true) (path content : String)
    (grammar : Option String) (reason : String) :
    (store.parse tools path content grammar).1 ≠ .error (.parsingUnavailable reason) := by
  rw [parse, prepare_of_true h]
  cases tools.table.language path with
  | none => simp
  | some language =>
    have never := load_fst_ne tools.loaders
      ((filled? grammar).getD (ExtensionTable.grammarOf language path))
      { store with ready := true } reason
    dsimp only
    split
    · rename_i failed
      rw [failed] at never
      simpa using never
    · exact accept_ne _ _ _ _ _ _ reason

end GrammarStore

namespace StoreUse

variable {tools : Toolbox} {store : GrammarStore} {use : StoreUse}

theorem run_of_isCleanup (h : use.isCleanup = true) : (use.run tools store).2 = store.cleanup := by
  rcases use with ⟨step, unavailable, parser⟩
  cases step with
  | cleanup => rfl
  | prepare | load _ | parse _ _ _ => cases h

/-- What a use does to a store. -/
theorem run_snd (h : use.isCleanup = false) :
    (use.run tools store).2 =
      match use.reaches? tools.table store.ready with
      | none => { store with ready := store.ready || use.opens }
      | some grammar =>
        ({ store with ready := store.ready || use.opens }.load tools.loaders grammar).2 := by
  rcases use with ⟨step, unavailable, parser⟩
  rw [run, GrammarStore.step_snd]
  cases step with
  | prepare => exact GrammarStore.prepare_snd unavailable store
  | cleanup => cases h
  | load grammar => simp [reaches?, opens, asksParser]
  | parse path content grammar =>
    simp only [reaches?, opens, asksParser, Bool.true_and]
    cases made : store.ready || unavailable.isNone with
    | false =>
      obtain ⟨reason, failed⟩ := GrammarStore.prepare_of_false made
      simp only [GrammarStore.parse, failed, Bool.false_eq_true, if_false]
      rw [← (Bool.or_eq_false_iff.1 made).1]
    | true =>
      simp only [GrammarStore.parse, GrammarStore.prepare_of_true made, if_true]
      cases tools.table.language path with
      | none => rfl
      | some language =>
        dsimp only [Option.map_some]
        split
        · rename_i loaded
          rw [loaded]
        · rename_i loaded
          rw [loaded]

/-- What becoming ready and loading a grammar keep, every use but a cleanup keeps. -/
theorem run_keeps {P : GrammarStore → Prop}
    (ready : ∀ store ready, P store → P { store with ready })
    (load : ∀ store grammar, P store → P (store.load tools.loaders grammar).2)
    (h : use.isCleanup = false) (hp : P store) : P (use.run tools store).2 := by
  rw [run_snd h]
  split
  · exact ready _ _ hp
  · exact load _ _ (ready _ _ hp)

theorem passes_iff : use.Passes tools store ↔
    use.asksParser = true ∧ (store.ready || use.unavailable.isNone) = true := by
  rcases use with ⟨step, unavailable, parser⟩
  refine and_congr_right fun asks => ?_
  cases made : store.ready || unavailable.isNone with
  | false =>
    obtain ⟨reason, failed⟩ := GrammarStore.prepare_of_false made
    refine iff_of_false (fun passed => passed reason ?_) Bool.false_ne_true
    cases step with
    | prepare => simp only [run, GrammarStep.run, failed]
    | parse path content grammar => simp only [run, GrammarStep.run, GrammarStore.parse, failed]
    | cleanup | load _ => cases asks
  | true =>
    refine iff_of_true (fun reason told => ?_) rfl
    cases step with
    | prepare => simp [run, GrammarStep.run, GrammarStore.prepare_of_true made] at told
    | parse path content grammar =>
      have never :
          (store.parse { tools with unavailable, parser } path content grammar).1 ≠
            .error (.parsingUnavailable reason) :=
        GrammarStore.parse_fst_ne made path content grammar reason
      revert told never
      simp only [run, GrammarStep.run]
      rcases store.parse { tools with unavailable, parser } path content grammar with ⟨_ | _, _⟩ <;>
        simp
    | cleanup | load _ => cases asks

theorem ready_run : (use.run tools store).2.ready = true ↔
    use.isCleanup = false ∧ (use.Passes tools store ∨ store.ready = true) := by
  cases cleanup : use.isCleanup with
  | true => simp [run_of_isCleanup cleanup, GrammarStore.cleanup]
  | false =>
    have ready : (use.run tools store).2.ready = (store.ready || use.opens) := by
      rw [run_snd cleanup]
      split
      · rfl
      · simp
    rw [ready, passes_iff, opens]
    cases store.ready <;> simp

theorem not_isCleanup_of_reaches? {table : ExtensionTable} {ready : Bool} {grammar : String}
    (h : use.reaches? table ready = some grammar) : use.isCleanup = false := by
  rcases use with ⟨step, unavailable, parser⟩
  cases step with
  | cleanup => cases h
  | prepare | load _ | parse _ _ _ => rfl

end StoreUse

/-! ## Many uses -/

namespace GrammarStore

variable {tools : Toolbox} {store : GrammarStore}

theorem after_append (uses more : List StoreUse) :
    store.after tools (uses ++ more) = (store.after tools uses).after tools more :=
  List.foldl_append

@[simp]
theorem after_concat (uses : List StoreUse) (use : StoreUse) :
    store.after tools (uses ++ [use]) = (use.run tools (store.after tools uses)).2 :=
  after_append uses [use]

theorem after_keeps {P : GrammarStore → Prop}
    (ready : ∀ store ready, P store → P { store with ready })
    (load : ∀ store grammar, P store → P (store.load tools.loaders grammar).2)
    {uses : List StoreUse} (h : ∀ use ∈ uses, use.isCleanup = false) (hp : P store) :
    P (store.after tools uses) := by
  induction uses generalizing store with
  | nil => exact hp
  | cons use uses ih =>
    obtain ⟨first, rest⟩ := List.forall_mem_cons.1 h
    exact ih rest (StoreUse.run_keeps ready load first hp)

end GrammarStore

end CodeGraph
