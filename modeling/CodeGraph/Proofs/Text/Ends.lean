import CodeGraph.Proofs.Text.Runs
import Mathlib.Data.List.Infix

/-!
# The ends of a text

Dropping a class at both ends leaves a part of the text (`dropEnds_decomposition`), and it does not
matter how many characters of the class stand around the text (`dropEnds_padded`) nor from which end
the text is read (`dropEnds_reverse`).  `peel` drops one character after another at both ends: it
changes nothing if none of them stands at an end (`peel_of_freeEnds`), and otherwise the text loses
the character that stands there (`isInfix_peel_cons`).
-/

namespace CodeGraph.Text

variable {p : Char → Bool} {text : List Char}

/-! ## Classes -/

/-- What is dropped at the ends consists of the class. -/
theorem dropEnds_decomposition (p : Char → Bool) (text : List Char) :
    ∃ front back, text = front ++ (dropEnds p text ++ back) ∧ (∀ c ∈ front, p c = true) ∧
      ∀ c ∈ back, p c = true := by
  obtain ⟨back, split, behind⟩ := dropEnd_append p (text.dropWhile p)
  refine ⟨text.takeWhile p, back, ?_, ?_, behind⟩
  · rw [dropEnds, ← split, List.takeWhile_append_dropWhile]
  · intro c hc
    exact List.all_eq_true.1 List.all_takeWhile c hc

theorem isInfix_dropEnds (p : Char → Bool) (text : List Char) : dropEnds p text <:+: text := by
  obtain ⟨front, back, split, -, -⟩ := dropEnds_decomposition p text
  exact ⟨front, back, by rw [List.append_assoc, ← split]⟩

theorem dropEnds_of_stops (first : Stops p text) (last : Stops p text.reverse) :
    dropEnds p text = text := by
  rw [dropEnds, first.dropWhile, dropEnd, last.dropWhile, List.reverse_reverse]

theorem dropEnd_padded {back : List Char} (behind : ∀ c ∈ back, p c = true) (text : List Char) :
    dropEnd p (text ++ back) = dropEnd p text := by
  have backwards : ∀ c ∈ back.reverse, p c = true := fun c hc => behind c (List.mem_reverse.1 hc)
  rw [dropEnd, dropEnd, List.reverse_append, List.dropWhile_append_of_pos backwards]

theorem dropEnd_cons {c : Char} (h : p c = false) (text : List Char) :
    dropEnd p (c :: text) = c :: dropEnd p text := by
  rw [dropEnd, List.reverse_cons, List.dropWhile_append]
  split_ifs with whole
  · have nothing : text.reverse.dropWhile p = [] := List.isEmpty_iff.1 whole
    rw [(stops_cons h []).dropWhile, dropEnd, nothing]
    rfl
  · rw [List.reverse_append]
    rfl

theorem dropEnds_cons {c : Char} (h : p c = true) (text : List Char) :
    dropEnds p (c :: text) = dropEnds p text := by
  rw [dropEnds, List.dropWhile_cons_of_pos h, dropEnds]

theorem dropEnds_padded {front back : List Char} (before : ∀ c ∈ front, p c = true)
    (behind : ∀ c ∈ back, p c = true) (text : List Char) :
    dropEnds p (front ++ (text ++ back)) = dropEnds p text := by
  rw [dropEnds, dropEnds, List.dropWhile_append_of_pos before, List.dropWhile_append]
  split_ifs with whole
  · have nothing : text.dropWhile p = [] := List.isEmpty_iff.1 whole
    have gone : back.dropWhile p = [] := List.dropWhile_eq_nil_iff.2 behind
    rw [nothing, gone]
  · exact dropEnd_padded behind _

theorem stops_dropWhile (p : Char → Bool) (text : List Char) : Stops p (text.dropWhile p) := by
  intro c hc
  have first := List.head?_dropWhile_not p text
  rwa [hc] at first

theorem Stops.of_append {rest : List Char} (h : Stops p (text ++ rest)) : Stops p text := by
  cases text with
  | nil => exact stops_nil
  | cons c text => exact stops_cons (h c rfl) text

/-- What is left has no character of the class at an end. -/
theorem stops_dropEnds (p : Char → Bool) (text : List Char) :
    Stops p (dropEnds p text) ∧ Stops p (dropEnds p text).reverse := by
  constructor
  · obtain ⟨back, split, -⟩ := dropEnd_append p (text.dropWhile p)
    have first := stops_dropWhile p text
    rw [split] at first
    exact first.of_append
  · rw [dropEnds, dropEnd, List.reverse_reverse]
    exact stops_dropWhile p _

theorem dropEnds_reverse (p : Char → Bool) (text : List Char) :
    dropEnds p text.reverse = (dropEnds p text).reverse := by
  obtain ⟨front, back, split, before, behind⟩ := dropEnds_decomposition p text
  obtain ⟨first, last⟩ := stops_dropEnds p text
  have backwards : text.reverse = back.reverse ++ ((dropEnds p text).reverse ++ front.reverse) := by
    conv_lhs => rw [split]
    rw [List.reverse_append, List.reverse_append, List.append_assoc]
  rw [backwards]
  calc dropEnds p (back.reverse ++ ((dropEnds p text).reverse ++ front.reverse))
      = dropEnds p (dropEnds p text).reverse :=
        dropEnds_padded (fun c hc => behind c (List.mem_reverse.1 hc))
          (fun c hc => before c (List.mem_reverse.1 hc)) _
    _ = (dropEnds p text).reverse :=
        dropEnds_of_stops last (by rwa [List.reverse_reverse])

/-- Trimming keeps every character that is no blank. -/
theorem count_trim {c : Char} (h : isBlank c = false) (text : List Char) :
    (trim text).count c = text.count c := by
  obtain ⟨front, back, split, before, behind⟩ := dropEnds_decomposition isBlank text
  have absent {blanks : List Char} (all : ∀ d ∈ blanks, isBlank d = true) : blanks.count c = 0 := by
    rw [List.count_eq_zero]
    intro mem
    rw [all c mem] at h
    cases h
  conv_rhs => rw [split]
  rw [List.count_append, List.count_append, absent before, absent behind, Nat.zero_add,
    Nat.add_zero, trim]

/-! ## One character after another -/

/-- Drops one character after another at both ends. -/
def peel (marks text : List Char) : List Char :=
  marks.foldl (fun text mark => dropEnds (· = mark) text) text

/-- None of the characters stands at an end of the text. -/
def FreeEnds (marks text : List Char) : Prop :=
  ∀ mark ∈ marks, text.head? ≠ some mark ∧ text.getLast? ≠ some mark

variable {marks : List Char}

theorem stops_of_head?_ne {mark : Char} (h : text.head? ≠ some mark) :
    Stops (· = mark) text := by
  intro c hc
  apply decide_eq_false
  rintro rfl
  exact h hc

/-- Only characters that are dropped are missing at the ends. -/
theorem peel_decomposition (marks text : List Char) :
    ∃ front back, text = front ++ (peel marks text ++ back) ∧ (∀ c ∈ front, c ∈ marks) ∧
      ∀ c ∈ back, c ∈ marks := by
  induction marks generalizing text with
  | nil =>
    refine ⟨[], [], (List.append_nil text).symm, ?_, ?_⟩ <;> exact fun c hc => by cases hc
  | cons mark marks ih =>
    obtain ⟨front, back, outer, before, behind⟩ := dropEnds_decomposition (· = mark) text
    obtain ⟨front', back', inner, before', behind'⟩ := ih (dropEnds (· = mark) text)
    refine ⟨front ++ front', back' ++ back, ?_, ?_, ?_⟩
    · conv_lhs => rw [outer, inner]
      simp only [peel, List.foldl_cons, List.append_assoc]
    · grind
    · grind

theorem isInfix_peel (marks text : List Char) : peel marks text <:+: text := by
  obtain ⟨front, back, split, -, -⟩ := peel_decomposition marks text
  exact ⟨front, back, by rw [List.append_assoc, ← split]⟩

theorem peel_reverse (marks text : List Char) :
    peel marks text.reverse = (peel marks text).reverse := by
  induction marks generalizing text with
  | nil => rfl
  | cons mark marks ih =>
    rw [peel, List.foldl_cons, dropEnds_reverse]
    exact ih _

theorem peel_of_freeEnds (h : FreeEnds marks text) : peel marks text = text := by
  induction marks with
  | nil => rfl
  | cons mark marks ih =>
    obtain ⟨first, last⟩ := h mark List.mem_cons_self
    rw [← List.head?_reverse] at last
    rw [peel, List.foldl_cons,
      dropEnds_of_stops (stops_of_head?_ne first) (stops_of_head?_ne last)]
    exact ih fun other hother => h other (List.mem_cons_of_mem mark hother)

theorem peel_cons_of_freeEnds {mark : Char} (h : FreeEnds [mark] text) (marks : List Char) :
    peel (mark :: marks) text = peel marks text :=
  congrArg (peel marks) (peel_of_freeEnds h)

theorem peel_padded {mark : Char} {padding : List Char} (all : ∀ c ∈ padding, c = mark)
    (marks text : List Char) :
    peel (mark :: marks) (padding ++ (text ++ padding)) = peel (mark :: marks) text := by
  have inside : ∀ c ∈ padding, decide (c = mark) = true := fun c hc => decide_eq_true (all c hc)
  rw [peel, peel, List.foldl_cons, List.foldl_cons, dropEnds_padded inside inside]

theorem freeEnds_padded {padding : List Char} (some : padding ≠ [])
    (free : ∀ c ∈ padding, c ∉ marks)
    (text : List Char) : FreeEnds marks (padding ++ (text ++ padding)) := by
  intro mark hmark
  constructor
  · obtain ⟨c, rest, rfl⟩ := List.exists_cons_of_ne_nil some
    intro first
    obtain rfl := Option.some.inj first
    exact free c List.mem_cons_self hmark
  · intro last
    rw [← List.append_assoc, List.getLast?_append_of_ne_nil _ some] at last
    exact free mark (List.mem_of_getLast? last) hmark

/-- A character that is dropped does not stay in front of the text. -/
theorem isInfix_peel_cons {c : Char} (hc : c ∈ marks) (text : List Char) :
    peel marks (c :: text) <:+: text := by
  induction marks generalizing text with
  | nil => cases hc
  | cons mark marks ih =>
    rw [peel, List.foldl_cons]
    by_cases same : c = mark
    · have gone : decide (c = mark) = true := decide_eq_true same
      rw [dropEnds_cons gone]
      exact (isInfix_peel marks _).trans (isInfix_dropEnds _ text)
    · have later : c ∈ marks := (List.mem_cons.1 hc).resolve_left same
      have stays : dropEnds (· = mark) (c :: text) = c :: dropEnd (· = mark) text := by
        have kept : decide (c = mark) = false := decide_eq_false same
        rw [dropEnds, (stops_cons kept text).dropWhile, dropEnd_cons kept]
      obtain ⟨back, split, -⟩ := dropEnd_append (· = mark) text
      rw [stays]
      exact (ih later _).trans ⟨[], back, split.symm⟩

theorem isInfix_peel_concat {c : Char} (hc : c ∈ marks) (text : List Char) :
    peel marks (text ++ [c]) <:+: text := by
  have first := isInfix_peel_cons hc text.reverse
  rwa [← List.reverse_infix, ← peel_reverse, List.reverse_cons, List.reverse_reverse] at first

/-- After trimming, nothing is missing exactly if none of the characters stands at an end. -/
theorem trim_peel_eq_iff (visible : ∀ mark ∈ marks, isBlank mark = false) :
    trim (peel marks text) = trim text ↔ FreeEnds marks text := by
  constructor
  · intro same mark hmark
    have counted : (peel marks text).count mark = text.count mark := by
      rw [← count_trim (visible mark hmark), same, count_trim (visible mark hmark)]
    -- The mark at an end would be counted in the text, but not in what is left.
    constructor
    · intro first
      obtain ⟨rest, rfl⟩ := List.head?_eq_some_iff.1 first
      have fewer := (isInfix_peel_cons hmark rest).sublist.count_le mark
      rw [counted, List.count_cons_self] at fewer
      omega
    · intro last
      obtain ⟨rest, rfl⟩ := List.getLast?_eq_some_iff.1 last
      have fewer := (isInfix_peel_concat hmark rest).sublist.count_le mark
      rw [counted, List.count_append, List.count_singleton_self] at fewer
      omega
  · intro free
    rw [peel_of_freeEnds free]

end CodeGraph.Text
