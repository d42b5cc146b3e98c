import CodeGraph.Proofs.Grammar.Epochs

/-!
# The ledger of the grammar store

Whatever a store is used for, its state follows from the epochs of its history: what it keeps, which
loaders were called and how often, and whether it is ready.  Two loads of a grammar give the same
number just if no cleanup comes between them: a number that is kept stays kept until a cleanup, and
is never given again afterwards (`StoreUse.number_eq_iff`).  A number that is kept under a name is
that of a call of the loader of this name, so a parser may be asked by the name (`Numbered.kept`).
-/

namespace CodeGraph

namespace GrammarStore

/-! ## Numbers -/

variable {tools : Toolbox} {loaders : LoaderTable} {store : GrammarStore} {base : Nat}

theorem load_ready (ready : Bool) (grammar : String) :
    { store with ready }.load loaders grammar =
      ((store.load loaders grammar).1, { (store.load loaders grammar).2 with ready }) := by
  unfold load
  cases store.kept.lookup grammar with
  | some number => rfl
  | none =>
    cases loaders grammar with
    | none => rfl
    | some answer => cases answer <;> rfl

/-- A grammar that a load gives is kept with its number. -/
theorem lookup_load {grammar : String} {number : Nat}
    (h : (store.load loaders grammar).1 = .ok number) :
    (store.load loaders grammar).2.kept.lookup grammar = some number := by
  rcases load_cases loaders grammar store with
    ⟨_, found, eq⟩ | ⟨missing, ⟨-, eq⟩ | ⟨_, -, eq⟩ | ⟨-, eq⟩⟩ <;> rw [eq] at h ⊢ <;> cases h
  · exact found
  · simp [List.lookup_append, missing]

/-- A load leaves what is kept. -/
theorem lookup_load_of_some {grammar : String} {number : Nat}
    (h : store.kept.lookup grammar = some number) (other : String) :
    (store.load loaders other).2.kept.lookup grammar = some number := by
  rcases kept_load loaders other store with same | ⟨-, new, added⟩
  · rwa [same]
  · rw [added, List.lookup_append, h, Option.some_or]

theorem calls_prefix_load (loaders : LoaderTable) (grammar : String) (store : GrammarStore) :
    store.calls <+: (store.load loaders grammar).2.calls := by
  rcases load_cases loaders grammar store with
    ⟨_, -, eq⟩ | ⟨-, ⟨-, eq⟩ | ⟨_, -, eq⟩ | ⟨-, eq⟩⟩ <;> simp [eq]

theorem calls_length_load (loaders : LoaderTable) (grammar : String) (store : GrammarStore) :
    store.calls.length ≤ (store.load loaders grammar).2.calls.length :=
  (calls_prefix_load loaders grammar store).length_le

/-- The grammars kept were loaded after the first `base` calls, each by the call of its own loader
that its number names. -/
structure Numbered (base : Nat) (store : GrammarStore) : Prop where
  low : base ≤ store.calls.length
  kept : ∀ grammar number, store.kept.lookup grammar = some number →
    base ≤ number ∧ store.calls[number]? = some grammar

theorem Numbered.lt {grammar : String} {number : Nat} (h : store.Numbered base)
    (found : store.kept.lookup grammar = some number) : number < store.calls.length :=
  (List.getElem?_eq_some_iff.1 (h.kept grammar number found).2).1

theorem numbered_cleanup (h : base ≤ store.calls.length) : store.cleanup.Numbered base :=
  ⟨h, fun _ _ found => nomatch found⟩

theorem Numbered.load (h : store.Numbered base) (grammar : String) :
    (store.load loaders grammar).2.Numbered base := by
  have longer := calls_length_load loaders grammar store
  refine ⟨Nat.le_trans h.low longer, fun other number found => ?_⟩
  by_cases old : store.kept.lookup other = some number
  · obtain ⟨late, called⟩ := h.kept other number old
    obtain ⟨later, more⟩ := calls_prefix_load loaders grammar store
    refine ⟨late, ?_⟩
    rw [← more, List.getElem?_append_left (h.lt old), called]
  · -- The grammar was added just now, with the number of the calls before.
    rcases load_cases loaders grammar store with
      ⟨_, -, eq⟩ | ⟨missing, ⟨-, eq⟩ | ⟨_, -, eq⟩ | ⟨-, eq⟩⟩ <;> rw [eq] at found ⊢
    · exact absurd found old
    · exact absurd found old
    · exact absurd found old
    · rw [List.lookup_append, Option.or_eq_some_iff] at found
      obtain ⟨-, added⟩ := found.resolve_left old
      simp only [List.lookup_cons, List.lookup_nil] at added
      split at added
      · next same =>
        obtain rfl := Option.some.inj added
        obtain rfl := eq_of_beq same
        exact ⟨h.low, List.getElem?_concat_length⟩
      · cases added

theorem calls_length_run (store : GrammarStore) (use : StoreUse) :
    store.calls.length ≤ (use.run tools store).2.calls.length := by
  cases cleanup : use.isCleanup with
  | true =>
    rw [StoreUse.run_of_isCleanup cleanup]
    exact Nat.le_refl _
  | false =>
    refine StoreUse.run_keeps (P := fun later => store.calls.length ≤ later.calls.length)
      (fun _ _ le => le) (fun later grammar le => ?_) cleanup (Nat.le_refl _)
    exact Nat.le_trans le (calls_length_load tools.loaders grammar later)

theorem calls_length_after (store : GrammarStore) (uses : List StoreUse) :
    store.calls.length ≤ (store.after tools uses).calls.length := by
  induction uses generalizing store with
  | nil => exact Nat.le_refl _
  | cons use uses ih => exact Nat.le_trans (calls_length_run store use) (ih _)

theorem Numbered.run (h : store.Numbered base) (use : StoreUse) :
    (use.run tools store).2.Numbered base := by
  cases cleanup : use.isCleanup with
  | true =>
    rw [StoreUse.run_of_isCleanup cleanup]
    exact numbered_cleanup h.low
  | false =>
    exact StoreUse.run_keeps (fun _ _ h => ⟨h.low, h.kept⟩) (fun _ g h => h.load g) cleanup h

theorem Numbered.after (h : store.Numbered base) (uses : List StoreUse) :
    (store.after tools uses).Numbered base := by
  induction uses generalizing store with
  | nil => exact h
  | cons use uses ih => exact ih (h.run use)

theorem numbered_after_cleanup {uses : List StoreUse} {use : StoreUse} (mem : use ∈ uses)
    (cleanup : use.isCleanup = true) :
    (store.after tools uses).Numbered store.calls.length := by
  obtain ⟨early, late, rfl⟩ := List.append_of_mem mem
  have cleaned : (use.run tools (store.after tools early)).2 = (store.after tools early).cleanup :=
    StoreUse.run_of_isCleanup cleanup
  rw [after_append, GrammarStore.after, List.foldl_cons, cleaned]
  exact (numbered_cleanup (calls_length_after store early)).after late

end GrammarStore

namespace StoreUse

open GrammarStore

variable {tools : Toolbox} {store : GrammarStore} {a b : StoreUse} {grammar : String} {m n : Nat}

theorem Gets.lookup (h : a.Gets tools store grammar n) :
    (a.run tools store).2.kept.lookup grammar = some n := by
  obtain ⟨reached, given⟩ := h
  rw [run_snd (not_isCleanup_of_reaches? reached), reached]
  dsimp only
  rw [load_ready]
  exact lookup_load given

theorem lookup_run (h : a.isCleanup = false) (kept : store.kept.lookup grammar = some n) :
    (a.run tools store).2.kept.lookup grammar = some n :=
  run_keeps (P := fun later => later.kept.lookup grammar = some n) (fun _ _ found => found)
    (fun _ other found => lookup_load_of_some found other) h kept

theorem lookup_after {uses : List StoreUse} (h : ∀ use ∈ uses, use.isCleanup = false)
    (kept : store.kept.lookup grammar = some n) :
    (store.after tools uses).kept.lookup grammar = some n :=
  after_keeps (P := fun later => later.kept.lookup grammar = some n) (fun _ _ found => found)
    (fun _ other found => lookup_load_of_some found other) h kept

/-- Two loads of a grammar give the same number just if no cleanup comes between them. -/
theorem number_eq_iff {between : List StoreUse} (numbered : store.Numbered 0)
    (first : a.Gets tools store grammar m)
    (second : b.Gets tools ((a.run tools store).2.after tools between) grammar n) :
    m = n ↔ ∀ use ∈ between, use.isCleanup = false := by
  have kept := first.lookup
  have again := second.lookup
  constructor
  · intro same use mem
    by_contra cleanup
    have apart : ((a.run tools store).2.after tools between).Numbered
        (a.run tools store).2.calls.length :=
      numbered_after_cleanup mem (by simpa using cleanup)
    have old := (numbered.run a).lt kept
    have new := ((apart.run b).kept grammar n again).1
    omega
  · intro quiet
    have stays : (b.run tools ((a.run tools store).2.after tools between)).2.kept.lookup grammar =
        some m :=
      lookup_run (not_isCleanup_of_reaches? second.1) (lookup_after quiet kept)
    rw [stays] at again
    exact Option.some.inj again

/-- The use gives a fault. -/
def Fails (tools : Toolbox) (store : GrammarStore) (use : StoreUse) : Prop :=
  ∃ f, (use.run tools store).1 = .fault f

theorem Fails.not_isCleanup (h : a.Fails tools store) : a.isCleanup = false := by
  rcases a with ⟨step, unavailable, parser⟩
  obtain ⟨f, failed⟩ := h
  cases step with
  | cleanup => cases failed
  | prepare | load _ | parse _ _ _ => rfl

theorem gets_iff_of_load (h : a.step = .load grammar) :
    a.Gets tools store grammar n ↔ (a.run tools store).1 = .grammar n := by
  rcases a with ⟨step, unavailable, parser⟩
  obtain rfl : step = .load grammar := h
  simp only [Gets, reaches?, run, GrammarStep.run, true_and]
  rcases store.load tools.loaders grammar with ⟨_ | _, _⟩ <;> simp

theorem run_snd_of_unsupported {path content : String} {override : Option String}
    (h : a.step = .parse path content override) (unsupported : tools.table.language path = none) :
    (a.run tools store).2 = { store with ready := store.ready || a.opens } := by
  have reaches : a.reaches? tools.table store.ready = none := by
    simp [reaches?, h, unsupported]
  have stays : a.isCleanup = false := by simp [isCleanup, h]
  rw [run_snd stays, reaches]

end StoreUse

/-! ## Histories -/

/-- A use since the last cleanup is so, after the uses before it. -/
def Lately (P : List StoreUse → StoreUse → Prop) (history : List StoreUse) : Prop :=
  ∃ before use later, history = before ++ use :: later ∧
    (∀ other ∈ use :: later, other.isCleanup = false) ∧ P before use

@[simp]
theorem not_lately_nil {P : List StoreUse → StoreUse → Prop} : ¬Lately P [] := by
  rintro ⟨before, use, later, eq, -⟩
  exact List.append_ne_nil_of_right_ne_nil before (List.cons_ne_nil use later) eq.symm

@[simp]
theorem lately_concat {P : List StoreUse → StoreUse → Prop} {history : List StoreUse}
    {use : StoreUse} :
    Lately P (history ++ [use]) ↔ use.isCleanup = false ∧ (P history use ∨ Lately P history) := by
  constructor
  · rintro ⟨before, first, later, eq, quiet, so⟩
    rcases List.eq_nil_or_concat later with rfl | ⟨later, last, rfl⟩
    · obtain ⟨rfl, ⟨⟩⟩ := List.append_inj' eq rfl
      exact ⟨quiet _ List.mem_cons_self, Or.inl so⟩
    · rw [List.concat_eq_append, ← List.cons_append, ← List.append_assoc] at eq
      obtain ⟨rfl, ⟨⟩⟩ := List.append_inj' eq rfl
      refine ⟨quiet _ (by simp), Or.inr ⟨before, first, later, rfl, fun other mem => ?_, so⟩⟩
      rcases List.mem_cons.1 mem with rfl | mem
      · exact quiet _ List.mem_cons_self
      · exact quiet _ (by simp [mem])
  · rintro ⟨stays, so | ⟨before, first, later, rfl, quiet, so⟩⟩
    · exact ⟨history, use, [], rfl, by simpa using stays, so⟩
    · refine ⟨before, first, later ++ [use], by simp, fun other mem => ?_, so⟩
      rw [← List.cons_append, List.mem_append, List.mem_singleton] at mem
      rcases mem with mem | rfl
      · exact quiet other mem
      · exact stays

namespace GrammarStore

theorem ready_after_iff (tools : Toolbox) (history : List StoreUse) :
    (empty.after tools history).ready = true ↔
      Lately (fun before use => use.Passes tools (empty.after tools before)) history := by
  induction history using List.reverseRecOn with
  | nil => exact iff_of_false Bool.false_ne_true not_lately_nil
  | append_singleton history use ih =>
    simp [StoreUse.ready_run, ih]

/-- What the uses of a history tell of the store after them, and of the next use of it. -/
structure Lawful (tools : Toolbox) (history : List StoreUse) : Prop where
  /-- Kept are the grammars that the current epoch came to load and whose loaders answer. -/
  names : ∀ grammar, grammar ∈ (empty.after tools history).names ↔
    grammar ∈ reached tools.table (currentEpoch history) ∧ tools.loaders grammar = some .loaded
  distinct : (empty.after tools history).names.Nodup
  lacking : ∀ grammar, tools.loaders grammar ≠ some .loaded →
    grammar ∉ (empty.after tools history).names
  /-- The number of a grammar is that of a call of its own loader. -/
  called : ∀ grammar number, (empty.after tools history).kept.lookup grammar = some number →
    (empty.after tools history).calls[number]? = some grammar
  /-- The calls are those of the epochs, one epoch after the other. -/
  calls : ∃ parts, (empty.after tools history).calls = parts.flatten ∧
    List.Forall₂ (Accounts tools) (epochs history) parts
  /-- Later loads give the same number until a cleanup, and another one after it. -/
  numbers : ∀ a between b grammar m n,
    StoreUse.Gets tools (empty.after tools history) a grammar m →
    StoreUse.Gets tools (empty.after tools (history ++ a :: between)) b grammar n →
    (m = n ↔ ∀ use ∈ between, use.isCleanup = false)
  answers : ∀ (use : StoreUse) grammar number, use.step = .load grammar →
    (use.Gets tools (empty.after tools history) grammar number ↔
      (use.run tools (empty.after tools history)).1 = .grammar number)
  failing : ∀ (use : StoreUse) grammar number, use.Fails tools (empty.after tools history) →
    (empty.after tools history).kept.lookup grammar = some number →
    (empty.after tools (history ++ [use])).kept.lookup grammar = some number
  unsupported : ∀ (use : StoreUse) path content grammar, use.step = .parse path content grammar →
    tools.table.language path = none →
    (empty.after tools (history ++ [use])).kept = (empty.after tools history).kept ∧
      (empty.after tools (history ++ [use])).calls = (empty.after tools history).calls
  ready : (empty.after tools history).ready = true ↔
    Lately (fun before use => use.Passes tools (empty.after tools before)) history

theorem numbered_empty : empty.Numbered 0 := ⟨Nat.le_refl 0, fun _ _ found => nomatch found⟩

/-- Whatever a store was used for, its epochs tell what it keeps and what it has called, and a
number that it gives lasts just until the next cleanup. -/
theorem lawful (tools : Toolbox) (history : List StoreUse) : Lawful tools history := by
  obtain ⟨past, current, parts, split, accounts, follows⟩ := follows_after tools history
  obtain ⟨since, made, counts⟩ := follows.holds.calls
  have last : currentEpoch history = current := by
    rw [currentEpoch, split, List.getLastD_concat]
  constructor
  case names =>
    rw [last]
    exact follows.holds.names
  case distinct => exact follows.holds.distinct
  case lacking =>
    intro grammar lacks mem
    exact lacks ((follows.holds.names grammar).1 mem).2
  case called =>
    exact fun grammar number kept => ((numbered_empty.after history).kept grammar number kept).2
  case calls =>
    refine ⟨parts ++ [since], ?_, ?_⟩
    · rw [made, List.flatten_concat]
    · rw [split]
      exact List.rel_append accounts (.cons counts .nil)
  case numbers =>
    intro a between b grammar m n first second
    rw [after_append] at second
    exact StoreUse.number_eq_iff (numbered_empty.after history) first second
  case answers =>
    intro use grammar number load
    exact StoreUse.gets_iff_of_load load
  case failing =>
    intro use grammar number fails kept
    rw [after_concat]
    exact StoreUse.lookup_run fails.not_isCleanup kept
  case unsupported =>
    intro use path content grammar step unsupported
    rw [after_concat, StoreUse.run_snd_of_unsupported step unsupported]
    exact ⟨rfl, rfl⟩
  case ready => exact ready_after_iff tools history

/-- Python's grammar loads, and Java's does not. -/
def pythonOnly : Toolbox where
  table := .standard
  loaders grammar :=
    if grammar = "python" then some .loaded
    else if grammar = "java" then some (.broken "no wheel")
    else none
  parser _ _ := .nothing
  unavailable := none
  strict := false

example :
    let load (grammar : String) : StoreUse := ⟨.load grammar, none, pythonOnly.parser⟩
    let parse : StoreUse := ⟨.parse "a.py" "" none, none, pythonOnly.parser⟩
    let clean : StoreUse := ⟨.cleanup, none, pythonOnly.parser⟩
    empty.after pythonOnly
        [load "java", load "go", parse, load "java", clean, load "python", parse] =
      ⟨true, [("python", 3)], ["java", "python", "java", "python"]⟩ := by
  decide +kernel

end GrammarStore

end CodeGraph
