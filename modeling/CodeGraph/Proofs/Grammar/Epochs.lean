import CodeGraph.Proofs.Grammar.Uses
import Mathlib.Data.List.Forall2
import Mathlib.Data.List.Induction
import Mathlib.Data.List.Nodup

/-!
# Epochs of the grammar store

The cleanups cut a history of uses into epochs.  In an epoch, the loader of a grammar is called for
the first attempt to load it, and again as long as it is broken (`callsFor`).  One load adds one
attempt (`GrammarStore.Holds.load`), so one use adds those that it makes
(`GrammarStore.Follows.run`), and a history the calls of one epoch after the other
(`GrammarStore.follows_after`).
-/

namespace CodeGraph

/-! ## Epochs -/

/-- The stretches of a history between its cleanups, from the first to the current one. -/
def epochs (history : List StoreUse) : List (List StoreUse) :=
  history.splitOnP StoreUse.isCleanup

def currentEpoch (history : List StoreUse) : List StoreUse := (epochs history).getLastD []

/-- The grammars that some uses come to load, once for every attempt, from a store that is ready or
not. -/
def reachedFrom (table : ExtensionTable) (ready : Bool) : List StoreUse → List String
  | [] => []
  | use :: rest =>
    (use.reaches? table ready).toList ++ reachedFrom table (ready || use.opens) rest

/-- The grammars that the uses of an epoch come to load. -/
def reached (table : ExtensionTable) (epoch : List StoreUse) : List String :=
  reachedFrom table false epoch

@[simp]
theorem reachedFrom_concat (table : ExtensionTable) (ready : Bool) (uses : List StoreUse)
    (use : StoreUse) :
    reachedFrom table ready (uses ++ [use]) =
      reachedFrom table ready uses ++
        (use.reaches? table (ready || uses.any StoreUse.opens)).toList := by
  induction uses generalizing ready with
  | nil => simp [reachedFrom]
  | cons first rest ih =>
    simp only [List.cons_append, reachedFrom, ih, List.append_assoc, List.any_cons, Bool.or_assoc]

theorem epochs_concat_of_isCleanup {use : StoreUse} (h : use.isCleanup = true)
    (history : List StoreUse) : epochs (history ++ [use]) = epochs history ++ [[]] := by
  unfold epochs
  rw [List.splitOnP_append_cons _ _ h, List.splitOnP_nil]

theorem epochs_concat {use : StoreUse} (h : use.isCleanup = false) (history : List StoreUse) :
    ∃ past current, epochs history = past ++ [current] ∧
      epochs (history ++ [use]) = past ++ [current ++ [use]] := by
  unfold epochs
  induction history with
  | nil => exact ⟨[], [], by simp, by simp [List.splitOnP_cons_eq_if_modifyHead, h]⟩
  | cons first rest ih =>
    obtain ⟨past, current, eq, eq'⟩ := ih
    rw [List.cons_append, List.splitOnP_cons_eq_if_modifyHead, List.splitOnP_cons_eq_if_modifyHead,
      eq, eq']
    split_ifs
    · exact ⟨[] :: past, current, rfl, rfl⟩
    · cases past with
      | nil => exact ⟨[], first :: current, rfl, rfl⟩
      | cons head past => exact ⟨(first :: head) :: past, current, rfl, rfl⟩

/-! ## Calls -/

/-- How often the loader of a grammar is called for some attempts to load grammars: once at all if
it answers, and for every attempt if it is broken. -/
def callsFor (loaders : LoaderTable) (attempts : List String) (grammar : String) : Nat :=
  match loaders grammar with
  | none => 0
  | some (.broken _) => attempts.count grammar
  | some .loaded => if grammar ∈ attempts then 1 else 0

/-- The calls that one more attempt brings. -/
def newCalls (loaders : LoaderTable) (attempts : List String) (grammar : String) : List String :=
  match loaders grammar with
  | none => []
  | some (.broken _) => [grammar]
  | some .loaded => if grammar ∈ attempts then [] else [grammar]

theorem callsFor_concat (loaders : LoaderTable) (attempts : List String)
    (grammar other : String) :
    callsFor loaders (attempts ++ [grammar]) other =
      callsFor loaders attempts other + (newCalls loaders attempts grammar).count other := by
  by_cases same : other = grammar
  · subst same
    unfold callsFor newCalls
    cases loaders other with
    | none => rfl
    | some answer =>
      cases answer with
      | broken reason => exact List.count_append
      | loaded => by_cases tried : other ∈ attempts <;> simp [tried]
  · have absent : other ∉ newCalls loaders attempts grammar := by
      unfold newCalls
      split <;> try split
      all_goals simp [same]
    rw [List.count_eq_zero_of_not_mem absent, Nat.add_zero]
    simp [callsFor, same, Ne.symm same]

namespace GrammarStore

/-- What a store that kept nothing after the calls `before` is like after some attempts. -/
structure Holds (loaders : LoaderTable) (before attempts : List String) (store : GrammarStore) :
    Prop where
  names : ∀ grammar, grammar ∈ store.names ↔
    grammar ∈ attempts ∧ loaders grammar = some .loaded
  distinct : store.names.Nodup
  calls : ∃ calls, store.calls = before ++ calls ∧
    ∀ grammar, calls.count grammar = callsFor loaders attempts grammar

variable {loaders : LoaderTable} {before attempts : List String} {store : GrammarStore}

@[simp]
theorem isSome_lookup_iff {grammar : String} :
    (store.kept.lookup grammar).isSome = true ↔ grammar ∈ store.names := by
  simp [names]

theorem holds_of_nothing (kept : store.kept = []) (calls : store.calls = before) :
    Holds loaders before [] store := by
  refine ⟨by simp [names, kept], by simp [names, kept], [], by simp [calls], fun grammar => ?_⟩
  rcases hl : loaders grammar with _ | _ | _ <;> simp [callsFor, hl]

theorem Holds.calls_concat (h : Holds loaders before attempts store) {grammar : String}
    {calls : List String} (more : calls = store.calls ++ newCalls loaders attempts grammar) :
    ∃ since, calls = before ++ since ∧
      ∀ other, since.count other = callsFor loaders (attempts ++ [grammar]) other := by
  obtain ⟨since, made, counts⟩ := h.calls
  refine ⟨since ++ newCalls loaders attempts grammar, ?_, fun other => ?_⟩
  · rw [more, made, List.append_assoc]
  · rw [List.count_append, counts, callsFor_concat]

/-- An attempt that adds no grammar is one in vain, or not the first. -/
theorem Holds.of_same (h : Holds loaders before attempts store) {grammar : String}
    (old : loaders grammar = some .loaded → grammar ∈ attempts) {later : GrammarStore}
    (same : later.names = store.names)
    (more : later.calls = store.calls ++ newCalls loaders attempts grammar) :
    Holds loaders before (attempts ++ [grammar]) later := by
  refine ⟨fun other => ?_, same ▸ h.distinct, h.calls_concat more⟩
  rw [same, h.names other]
  grind

theorem Holds.of_added (h : Holds loaders before attempts store) {grammar : String}
    (loads : loaders grammar = some .loaded) (fresh : grammar ∉ store.names)
    {later : GrammarStore} (added : later.names = store.names ++ [grammar])
    (more : later.calls = store.calls ++ newCalls loaders attempts grammar) :
    Holds loaders before (attempts ++ [grammar]) later := by
  refine ⟨fun other => ?_, ?_, h.calls_concat more⟩
  · rw [added, List.mem_append, h.names other]
    grind
  · rw [added, List.nodup_append]
    refine ⟨h.distinct, List.nodup_singleton _, fun other mem last => ?_⟩
    rw [List.mem_singleton]
    rintro rfl rfl
    exact fresh mem

theorem Holds.load (h : Holds loaders before attempts store) (grammar : String) :
    Holds loaders before (attempts ++ [grammar]) (store.load loaders grammar).2 := by
  rcases load_cases loaders grammar store with
    ⟨number, found, eq⟩ | ⟨missing, ⟨absent, eq⟩ | ⟨reason, broken, eq⟩ | ⟨loads, eq⟩⟩ <;> rw [eq]
  · have mem : grammar ∈ store.names := isSome_lookup_iff.1 (by rw [found]; rfl)
    obtain ⟨tried, loads⟩ := (h.names grammar).1 mem
    exact h.of_same (fun _ => tried) rfl (by simp [newCalls, loads, tried])
  · exact h.of_same (by simp [absent]) rfl (by simp [newCalls, absent])
  · exact h.of_same (by simp [broken]) rfl (by simp [newCalls, broken])
  · have fresh : grammar ∉ store.names := by
      rw [← isSome_lookup_iff, missing]
      exact Bool.false_ne_true
    have first : grammar ∉ attempts := fun tried => fresh ((h.names grammar).2 ⟨tried, loads⟩)
    exact h.of_added loads fresh List.map_append (by simp [newCalls, loads, first])

/-- What a store is like after the uses of an epoch that began after the calls `before`. -/
structure Follows (tools : Toolbox) (before : List String) (epoch : List StoreUse)
    (store : GrammarStore) : Prop where
  ready : store.ready = epoch.any StoreUse.opens
  holds : Holds tools.loaders before (reached tools.table epoch) store

variable {tools : Toolbox} {epoch : List StoreUse}

theorem Follows.run (h : Follows tools before epoch store) {use : StoreUse}
    (stays : use.isCleanup = false) :
    Follows tools before (epoch ++ [use]) (use.run tools store).2 := by
  have attempts := reachedFrom_concat tools.table false epoch use
  rw [Bool.false_or, ← h.ready] at attempts
  have ready : (store.ready || use.opens) = (epoch ++ [use]).any StoreUse.opens := by
    rw [h.ready, List.any_append, List.any_cons, List.any_nil, Bool.or_false]
  rw [StoreUse.run_snd stays]
  cases tried : use.reaches? tools.table store.ready with
  | none =>
    refine ⟨ready, ?_⟩
    rw [reached, attempts, tried, Option.toList_none, List.append_nil]
    exact ⟨h.holds.names, h.holds.distinct, h.holds.calls⟩
  | some grammar =>
    refine ⟨(ready_load ..).trans ready, ?_⟩
    rw [reached, attempts, tried, Option.toList_some]
    have same : Holds tools.loaders before (reached tools.table epoch)
        { store with ready := store.ready || use.opens } :=
      ⟨h.holds.names, h.holds.distinct, h.holds.calls⟩
    exact same.load grammar

/-- The loader calls of an epoch are those that its attempts need. -/
def Accounts (tools : Toolbox) (epoch : List StoreUse) (calls : List String) : Prop :=
  ∀ grammar, calls.count grammar = callsFor tools.loaders (reached tools.table epoch) grammar

theorem follows_after (tools : Toolbox) (history : List StoreUse) :
    ∃ past current parts, epochs history = past ++ [current] ∧
      List.Forall₂ (Accounts tools) past parts ∧
      Follows tools parts.flatten current (empty.after tools history) := by
  induction history using List.reverseRecOn with
  | nil => exact ⟨[], [], [], List.splitOnP_nil, .nil, rfl, holds_of_nothing rfl rfl⟩
  | append_singleton history use ih =>
    obtain ⟨past, current, parts, split, accounts, follows⟩ := ih
    rw [after_concat]
    cases cleanup : use.isCleanup with
    | false =>
      obtain ⟨past', current', split', later⟩ := epochs_concat cleanup history
      obtain ⟨rfl, rfl⟩ := List.append_singleton_inj.1 (split.symm.trans split')
      exact ⟨past, current ++ [use], parts, later, accounts, follows.run cleanup⟩
    | true =>
      obtain ⟨calls, made, counts⟩ := follows.holds.calls
      have all : (parts ++ [calls]).flatten = (empty.after tools history).calls := by
        rw [List.flatten_concat, made]
      have closed : List.Forall₂ (Accounts tools) (past ++ [current]) (parts ++ [calls]) :=
        List.rel_append accounts (.cons counts .nil)
      refine ⟨past ++ [current], [], parts ++ [calls], ?_, closed, ?_⟩
      · rw [epochs_concat_of_isCleanup cleanup, split]
      · rw [StoreUse.run_of_isCleanup cleanup, all]
        exact ⟨rfl, holds_of_nothing rfl rfl⟩

end GrammarStore

end CodeGraph
