import CodeGraph.Link.Call
import Mathlib.Order.Bounds.Defs
import Mathlib.Data.List.Basic

/-!
# Where a name is called

A name is called at a place of a text if it begins there as a word, with an opening parenthesis
behind it and only blanks between (`CalledAt`), or if the word `new` does, with blanks and such a
form behind it (`CreatedAt`).  The search finds the first place of the first form, or of the second
if there is none of the first (`firstCall_eq_some_iff`).
-/

namespace CodeGraph

open CodeGraph.Text

variable {name text : List Char}

/-! ## Forms -/

/-- The text consists of blanks, if of anything. -/
def Blank (text : List Char) : Prop := ∀ c ∈ text, isBlank c = true

/-- The text begins with the name and an opening parenthesis, with blanks between. -/
def Calls (name text : List Char) : Prop :=
  ∃ gap rest, text = name ++ (gap ++ '(' :: rest) ∧ Blank gap

/-- The text begins with the word `new`, with blanks and a call of the name behind it. -/
def Creates (name text : List Char) : Prop :=
  ∃ gap rest, text = "new".toList ++ (gap ++ rest) ∧ gap ≠ [] ∧ Blank gap ∧ Calls name rest

/-- A phrase of the form stands in the text behind `k` characters, where a word begins or ends. -/
def PhraseAt (form : List Char → Prop) (text : List Char) (k : Nat) : Prop :=
  ∃ before after, text = before ++ after ∧ before.length = k ∧
    isWordBoundary before.getLast? after.head? = true ∧ form after

/-- The name is called behind `k` characters. -/
def CalledAt (name text : List Char) (k : Nat) : Prop := PhraseAt (Calls name) text k

/-- The name is called behind the word `new`, which stands behind `k` characters. -/
def CreatedAt (name text : List Char) (k : Nat) : Prop := PhraseAt (Creates name) text k

@[simp]
theorem opensCall_iff :
    opensCall text = true ↔ ∃ gap rest, text = gap ++ '(' :: rest ∧ Blank gap := by
  unfold opensCall
  rw [decide_eq_true_eq]
  constructor
  · intro h
    obtain ⟨rest, eq⟩ := List.head?_eq_some_iff.1 h
    refine ⟨text.takeWhile isBlank, rest, ?_, ?_⟩
    · rw [← eq, List.takeWhile_append_dropWhile]
    · exact List.all_eq_true.1 List.all_takeWhile
  · rintro ⟨gap, rest, rfl, blank⟩
    have open_ : isBlank '(' = false := by decide
    rw [List.dropWhile_append_of_pos blank, List.dropWhile_cons_of_neg (by simp [open_])]
    rfl

@[simp]
theorem startsCall_iff : startsCall name text = true ↔ Calls name text := by
  unfold startsCall Calls
  rw [Bool.and_eq_true, List.isPrefixOf_iff_prefix, opensCall_iff]
  constructor
  · rintro ⟨⟨later, rfl⟩, gap, rest, eq, blank⟩
    rw [List.drop_left] at eq
    exact ⟨gap, rest, by rw [eq], blank⟩
  · rintro ⟨gap, rest, rfl, blank⟩
    exact ⟨List.prefix_append _ _, gap, rest, List.drop_left, blank⟩

@[simp]
theorem blanksThenCall_iff :
    blanksThenCall name text = true ↔
      ∃ gap rest, text = gap ++ rest ∧ gap ≠ [] ∧ Blank gap ∧ Calls name rest := by
  induction text with
  | nil =>
    constructor
    · intro h
      cases h
    · rintro ⟨gap, rest, eq, some, -, -⟩
      exact absurd (List.append_eq_nil_iff.1 eq.symm).1 some
  | cons c text ih =>
    rw [blanksThenCall, Bool.and_eq_true, Bool.or_eq_true, ih, startsCall_iff]
    constructor
    · rintro ⟨blank, now | ⟨gap, rest, rfl, -, blanks, later⟩⟩
      · exact ⟨[c], text, rfl, by simp, by simpa [Blank] using blank, now⟩
      · exact ⟨c :: gap, rest, rfl, by simp, List.forall_mem_cons.2 ⟨blank, blanks⟩, later⟩
    · rintro ⟨gap, rest, eq, some, blanks, call⟩
      cases gap with
      | nil => exact absurd rfl some
      | cons d gap =>
        obtain ⟨rfl, rfl⟩ := List.cons.inj eq
        obtain ⟨blank, blanks⟩ := List.forall_mem_cons.1 blanks
        refine ⟨blank, ?_⟩
        by_cases more : gap = []
        · subst more
          exact Or.inl call
        · exact Or.inr ⟨gap, rest, rfl, more, blanks, call⟩

theorem isCallAt_iff {before : Option Char} :
    isCallAt name before text = true ↔
      isWordBoundary before text.head? = true ∧ Calls name text := by
  simp [isCallAt, and_comm]

theorem isCreationAt_iff {before : Option Char} :
    isCreationAt name before text = true ↔
      isWordBoundary before text.head? = true ∧ Creates name text := by
  rw [isCreationAt, Bool.and_eq_true, Bool.and_eq_true, List.isPrefixOf_iff_prefix,
    blanksThenCall_iff, and_comm (a := "new".toList <+: text), and_assoc]
  refine and_congr_right fun _ => ?_
  constructor
  · rintro ⟨⟨later, rfl⟩, gap, rest, eq, some⟩
    rw [show 3 = "new".toList.length from rfl, List.drop_left] at eq
    exact ⟨gap, rest, by rw [eq], some⟩
  · rintro ⟨gap, rest, rfl, some⟩
    exact ⟨List.prefix_append _ _, gap, rest, rfl, some⟩

theorem Calls.ne_nil (h : Calls name text) : text ≠ [] := by
  obtain ⟨gap, rest, rfl, -⟩ := h
  simp

theorem Creates.ne_nil (h : Creates name text) : text ≠ [] := by
  obtain ⟨gap, rest, rfl, -⟩ := h
  simp

/-! ## Search -/

/-- The test holds behind `k` characters of the text. -/
def HoldsAt (holds : Option Char → List Char → Bool) (text : List Char) (k : Nat) : Prop :=
  k < text.length ∧ holds (text.take k).getLast? (text.drop k) = true

variable {holds : Option Char → List Char → Bool} {k : Nat}

theorem holdsAt_append {seen : List Char} (some : text ≠ []) :
    HoldsAt holds (seen ++ text) seen.length ↔ holds seen.getLast? text = true := by
  unfold HoldsAt
  rw [List.take_left, List.drop_left]
  have := List.length_pos_iff.2 some
  simp [this]

/-- The search goes on behind what it has seen. -/
theorem firstPlace_step (seen : List Char) (c : Char) (rest : List Char) :
    firstPlace holds seen.getLast? seen.length (c :: rest) =
      if holds seen.getLast? (c :: rest) then some seen.length
      else firstPlace holds (seen ++ [c]).getLast? (seen ++ [c]).length rest := by
  rw [firstPlace, List.getLast?_concat, List.length_append, List.length_singleton]

theorem firstPlace_eq_some (seen : List Char)
    (h : firstPlace holds seen.getLast? seen.length text = some k) :
    HoldsAt holds (seen ++ text) k ∧
      ∀ j, seen.length ≤ j → HoldsAt holds (seen ++ text) j → k ≤ j := by
  -- `seen ++ text` stays the same, so places are always counted from its front
  induction text generalizing seen with
  | nil => cases h
  | cons c rest ih =>
    rw [firstPlace_step] at h
    split_ifs at h with here
    · cases h
      exact ⟨(holdsAt_append (by simp)).2 here, fun j le _ => le⟩
    · obtain ⟨found, least⟩ := ih _ h
      rw [List.append_assoc, List.singleton_append] at found least
      refine ⟨found, fun j le there => ?_⟩
      have later : j ≠ seen.length := by
        rintro rfl
        exact here ((holdsAt_append (by simp)).1 there)
      exact least j (by rw [List.length_append, List.length_singleton]; omega) there

theorem firstPlace_eq_none (seen : List Char)
    (h : firstPlace holds seen.getLast? seen.length text = none) :
    ∀ j, seen.length ≤ j → ¬ HoldsAt holds (seen ++ text) j := by
  induction text generalizing seen with
  | nil =>
    rintro j le ⟨lt, -⟩
    rw [List.append_nil] at lt
    omega
  | cons c rest ih =>
    rw [firstPlace_step] at h
    split_ifs at h with here
    have none := ih _ h
    rw [List.append_assoc, List.singleton_append] at none
    intro j le there
    have later : j ≠ seen.length := by
      rintro rfl
      exact here ((holdsAt_append (by simp)).1 there)
    exact none j (by rw [List.length_append, List.length_singleton]; omega) there

theorem firstPlace_eq_some_iff :
    firstPlace holds none 0 text = some k ↔ IsLeast {j | HoldsAt holds text j} k := by
  constructor
  · intro h
    obtain ⟨found, least⟩ := firstPlace_eq_some [] h
    exact ⟨found, fun j there => least j (Nat.zero_le j) there⟩
  · rintro ⟨found, least⟩
    cases h : firstPlace holds none 0 text with
    | none => exact absurd found (firstPlace_eq_none [] h k (Nat.zero_le k))
    | some first =>
      obtain ⟨there, before⟩ := firstPlace_eq_some [] h
      have after := least there
      have sooner := before k (Nat.zero_le k) found
      rw [Nat.le_antisymm sooner after]

theorem firstPlace_eq_none_iff :
    firstPlace holds none 0 text = none ↔ ∀ j, ¬ HoldsAt holds text j := by
  constructor
  · intro h j
    exact firstPlace_eq_none [] h j (Nat.zero_le j)
  · intro h
    rw [Option.eq_none_iff_forall_ne_some]
    intro k found
    exact h k (firstPlace_eq_some_iff.1 found).1

theorem holdsAt_iff_phraseAt {form : List Char → Prop}
    (same : ∀ before after, holds before after = true ↔
      isWordBoundary before after.head? = true ∧ form after)
    (some : ∀ after, form after → after ≠ []) :
    HoldsAt holds text k ↔ PhraseAt form text k := by
  constructor
  · rintro ⟨lt, here⟩
    refine ⟨text.take k, text.drop k, (List.take_append_drop k text).symm, ?_, (same _ _).1 here⟩
    rw [List.length_take]
    omega
  · rintro ⟨before, after, rfl, rfl, phrase⟩
    exact (holdsAt_append (some after phrase.2)).2 ((same _ _).2 phrase)

theorem calledAt_iff : HoldsAt (isCallAt name) text k ↔ CalledAt name text k :=
  holdsAt_iff_phraseAt (fun _ _ => isCallAt_iff) fun _ => Calls.ne_nil

theorem createdAt_iff : HoldsAt (isCreationAt name) text k ↔ CreatedAt name text k :=
  holdsAt_iff_phraseAt (fun _ _ => isCreationAt_iff) fun _ => Creates.ne_nil

/-- `k` is the first place where the name is called, or the first one where it is called behind
`new` if it is called in no other way. -/
def FirstCalledAt (name text : List Char) (k : Nat) : Prop :=
  IsLeast {j | CalledAt name text j} k ∨
    (∀ j, ¬ CalledAt name text j) ∧ IsLeast {j | CreatedAt name text j} k

theorem firstCall_eq_some_iff : firstCall name text = some k ↔ FirstCalledAt name text k := by
  unfold firstCall FirstCalledAt
  rw [Option.or_eq_some_iff, firstPlace_eq_some_iff, firstPlace_eq_some_iff,
    firstPlace_eq_none_iff]
  simp only [calledAt_iff, createdAt_iff]

example : firstCall "f1".toList "xf1() new f1 ()".toList = some 10 := by decide

theorem exists_firstCalledAt_iff :
    (∃ k, FirstCalledAt name text k) ↔
      (∃ k, CalledAt name text k) ∨ ∃ k, CreatedAt name text k := by
  constructor
  · rintro ⟨k, ⟨found, -⟩ | ⟨-, found, -⟩⟩
    · exact Or.inl ⟨k, found⟩
    · exact Or.inr ⟨k, found⟩
  · intro found
    cases h : firstCall name text with
    | some k => exact ⟨k, firstCall_eq_some_iff.1 h⟩
    | none =>
      unfold firstCall at h
      rw [Option.or_eq_none_iff, firstPlace_eq_none_iff, firstPlace_eq_none_iff] at h
      rcases found with ⟨k, found⟩ | ⟨k, found⟩
      · exact absurd (calledAt_iff.2 found) (h.1 k)
      · exact absurd (createdAt_iff.2 found) (h.2 k)

/-- The text at the first place begins with the name, or with `new` if the name is only called
behind that word. -/
theorem FirstCalledAt.begins (h : FirstCalledAt name text k) :
    k < text.length ∧ (name <+: text.drop k ∨
      (∀ j, ¬ CalledAt name text j) ∧ "new".toList <+: text.drop k) := by
  rcases h with ⟨found, -⟩ | ⟨none, found, -⟩
  · have lt := (calledAt_iff.2 found).1
    obtain ⟨before, after, rfl, rfl, -, gap, rest, rfl, -⟩ := found
    rw [List.drop_left]
    exact ⟨lt, Or.inl (List.prefix_append _ _)⟩
  · have lt := (createdAt_iff.2 found).1
    obtain ⟨before, after, rfl, rfl, -, gap, rest, rfl, -⟩ := found
    rw [List.drop_left]
    exact ⟨lt, Or.inr ⟨none, List.prefix_append _ _⟩⟩

end CodeGraph
