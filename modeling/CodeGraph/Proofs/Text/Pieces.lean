import CodeGraph.Text.Cut
import Mathlib.Data.List.Basic
import Mathlib.Data.List.TakeWhile

/-!
# The pieces of a text

Two texts with a separator between them fall into the pieces of the first one and those of the
second (`cutAt_append_cons`).  So a text has one piece more than it has separators (`length_cutAt`),
and behind any part of a text the pieces go on with the piece that the part breaks off in
(`drop_cutAt`), which `lastPiece` gives.  Pieces that are joined in front of others are a text of
their own with as many separators (`joinWith_append`).  Cutting gives back the pieces that were
joined (`cutAt_joinWith`), and one text ends with the pieces of another exactly if it is that text
or ends with it behind a separator (`cutAt_suffix_cutAt_iff`).
-/

namespace CodeGraph.Text

variable {sep : Char} {a b text : List Char}

/-! ## Cutting -/

theorem cutAt_cons_of_ne {c : Char} (h : c ≠ sep) (text : List Char) :
    ∃ piece pieces, cutAt sep text = piece :: pieces ∧
      cutAt sep (c :: text) = (c :: piece) :: pieces := by
  obtain ⟨piece, pieces, eq⟩ := List.exists_cons_of_ne_nil (cutAt_ne_nil sep text)
  refine ⟨piece, pieces, eq, ?_⟩
  rw [cutAt, if_neg h, eq]

@[simp]
theorem cutAt_append_cons (sep : Char) (a b : List Char) :
    cutAt sep (a ++ sep :: b) = cutAt sep a ++ cutAt sep b := by
  induction a with
  | nil => simp [cutAt]
  | cons c a ih =>
    by_cases h : c = sep
    · simp [cutAt, h, ih]
    · obtain ⟨piece, pieces, first, both⟩ := cutAt_cons_of_ne h a
      rw [List.cons_append, cutAt, if_neg h, ih, first, both]
      rfl

@[simp]
theorem cutAt_of_notMem (h : sep ∉ text) : cutAt sep text = [text] := by
  induction text with
  | nil => rfl
  | cons c text ih =>
    rw [List.mem_cons, not_or] at h
    rw [cutAt, if_neg fun e => h.1 e.symm, ih h.2]

@[simp]
theorem length_cutAt (sep : Char) (text : List Char) :
    (cutAt sep text).length = text.count sep + 1 := by
  induction text with
  | nil => rfl
  | cons c text ih =>
    by_cases h : c = sep
    · rw [cutAt, if_pos h, List.length_cons, ih, h, List.count_cons_self]
    · obtain ⟨piece, pieces, first, both⟩ := cutAt_cons_of_ne h text
      rw [first] at ih
      rw [both, List.count_cons_of_ne h, ← ih]
      rfl

/-! ## The last piece -/

@[simp]
theorem lastPiece_append_cons (sep : Char) (a b : List Char) :
    lastPiece sep (a ++ sep :: b) = lastPiece sep b := by
  obtain ⟨piece, pieces, eq⟩ := List.exists_cons_of_ne_nil (cutAt_ne_nil sep b)
  rw [lastPiece, lastPiece, cutAt_append_cons, eq, List.getLastD_eq_getLast?,
    List.getLastD_eq_getLast?, List.getLast?_append_of_ne_nil _ (List.cons_ne_nil piece pieces)]

theorem lastPiece_of_notMem (h : sep ∉ text) : lastPiece sep text = text := by
  rw [lastPiece, cutAt_of_notMem h]
  rfl

/-- A text is its last piece, with a separator in front if anything stands before it. -/
theorem eq_lastPiece_or (sep : Char) (text : List Char) :
    sep ∉ lastPiece sep text ∧
      (text = lastPiece sep text ∨ ∃ front, text = front ++ sep :: lastPiece sep text) := by
  by_cases h : sep ∈ text
  · -- the last separator is the first one backwards
    obtain ⟨back, front, eq, new⟩ := List.eq_append_cons_of_mem (List.mem_reverse.2 h)
    have split : text = front.reverse ++ sep :: back.reverse := by
      rw [← List.reverse_reverse text, eq]
      simp
    have last : lastPiece sep text = back.reverse := by
      rw [split, lastPiece_append_cons, lastPiece_of_notMem (by simpa using new)]
    exact ⟨by simpa [last] using new, Or.inr ⟨front.reverse, by rw [last, ← split]⟩⟩
  · rw [lastPiece_of_notMem h]
    exact ⟨h, Or.inl rfl⟩

/-- The items behind the last `x`, backwards. -/
theorem takeWhile_reverse_of_notMem {α : Type} [DecidableEq α] {x : α} {tail : List α}
    (h : x ∉ tail) (front : List α) :
    tail.reverse.takeWhile (· ≠ x) = tail.reverse ∧
      (front ++ x :: tail).reverse.takeWhile (· ≠ x) = tail.reverse := by
  have all : ∀ y ∈ tail.reverse, decide (y ≠ x) = true := by
    intro y hy
    apply decide_eq_true
    rintro rfl
    exact h (List.mem_reverse.1 hy)
  constructor
  · exact List.takeWhile_eq_self_iff.2 all
  · rw [List.reverse_append, List.reverse_cons, List.append_assoc,
      List.takeWhile_append_of_pos all]
    simp

theorem takeWhile_reverse (sep : Char) (text : List Char) :
    text.reverse.takeWhile (· ≠ sep) = (lastPiece sep text).reverse := by
  obtain ⟨free, whole | ⟨front, whole⟩⟩ := eq_lastPiece_or sep text
  · have := (takeWhile_reverse_of_notMem free []).1
    rwa [← whole] at this ⊢
  · have := (takeWhile_reverse_of_notMem free front).2
    rwa [← whole] at this

/-- Behind a part of a text the pieces go on with the piece that the part breaks off in. -/
theorem drop_cutAt (sep : Char) (a b : List Char) :
    (cutAt sep (a ++ b)).drop (a.count sep) = cutAt sep (lastPiece sep a ++ b) := by
  obtain ⟨free, whole | ⟨front, whole⟩⟩ := eq_lastPiece_or sep a
  · have none : a.count sep = 0 := List.count_eq_zero.2 (whole ▸ free)
    rw [none, List.drop_zero, ← whole]
  · have counted : a.count sep = (cutAt sep front).length := by
      have none : (lastPiece sep a).count sep = 0 := List.count_eq_zero.2 free
      have := congrArg (List.count sep) whole
      rw [List.count_append, List.count_cons_self, none] at this
      simp [this]
    have split : a ++ b = front ++ sep :: (lastPiece sep a ++ b) := by
      conv_lhs => rw [whole]
      simp
    simp [split, counted]

/-- The piece that a part of a text breaks off in is the beginning of a piece of the text. -/
theorem exists_piece (sep : Char) (a b : List Char) :
    ∃ piece, (cutAt sep (a ++ b))[a.count sep]? = some piece ∧ lastPiece sep a <+: piece := by
  obtain ⟨first, pieces, eq⟩ := List.exists_cons_of_ne_nil (cutAt_ne_nil sep b)
  have free := (eq_lastPiece_or sep a).1
  have goes : cutAt sep (lastPiece sep a ++ b) = (lastPiece sep a ++ first) :: pieces := by
    generalize lastPiece sep a = start at free
    induction start with
    | nil => exact eq
    | cons c start ih =>
      rw [List.mem_cons, not_or] at free
      rw [List.cons_append, cutAt, if_neg fun e => free.1 e.symm, ih free.2]
      rfl
  refine ⟨lastPiece sep a ++ first, ?_, List.prefix_append _ _⟩
  have := congrArg List.head? (drop_cutAt sep a b)
  rwa [List.head?_drop, goes] at this

/-! ## Joining -/

/-- The pieces with the separator behind each. -/
def closed (sep : Char) (pieces : List (List Char)) : List Char :=
  pieces.flatMap fun piece => piece ++ [sep]

theorem joinWith_append {later : List (List Char)} (h : later ≠ []) (pieces : List (List Char)) :
    joinWith sep (pieces ++ later) = closed sep pieces ++ joinWith sep later := by
  induction pieces with
  | nil => rfl
  | cons piece pieces ih =>
    have more : pieces ++ later ≠ [] := by simp [h]
    rw [List.cons_append, joinWith_cons more, ih]
    simp [closed]

theorem closed_eq {pieces : List (List Char)} (h : pieces ≠ []) :
    closed sep pieces = joinWith sep pieces ++ [sep] := by
  induction pieces with
  | nil => exact absurd rfl h
  | cons piece pieces ih =>
    by_cases last : pieces = []
    · subst last
      simp [closed, joinWith]
    · have step : closed sep (piece :: pieces) = piece ++ sep :: closed sep pieces := by
        simp [closed]
      rw [step, ih last, joinWith_cons last]
      simp

theorem cutAt_joinWith {pieces : List (List Char)} (h : pieces ≠ [])
    (free : ∀ piece ∈ pieces, sep ∉ piece) : cutAt sep (joinWith sep pieces) = pieces := by
  induction pieces with
  | nil => exact absurd rfl h
  | cons piece pieces ih =>
    obtain ⟨first, later⟩ := List.forall_mem_cons.1 free
    by_cases last : pieces = []
    · subst last
      exact cutAt_of_notMem first
    · rw [joinWith_cons last, cutAt_append_cons, cutAt_of_notMem first, ih last later]
      rfl

theorem joinWith_ne_nil {pieces : List (List Char)} (h : pieces ≠ [])
    (some : ∀ piece ∈ pieces, piece ≠ []) : joinWith sep pieces ≠ [] := by
  obtain ⟨piece, pieces, rfl⟩ := List.exists_cons_of_ne_nil h
  by_cases last : pieces = []
  · subst last
    exact some piece List.mem_cons_self
  · rw [joinWith_cons last]
    simp

theorem count_closed {pieces : List (List Char)} (h : ∀ piece ∈ pieces, sep ∉ piece) :
    (closed sep pieces).count sep = pieces.length := by
  induction pieces with
  | nil => rfl
  | cons piece pieces ih =>
    obtain ⟨free, rest⟩ := List.forall_mem_cons.1 h
    have none : piece.count sep = 0 := List.count_eq_zero.2 free
    have later : (pieces.flatMap fun piece => piece ++ [sep]).count sep = pieces.length := ih rest
    simp only [closed, List.flatMap_cons, List.count_append, later, none, List.count_singleton_self,
      List.length_cons]
    omega

theorem cutAt_closed_append {pieces : List (List Char)} (h : ∀ piece ∈ pieces, sep ∉ piece)
    (text : List Char) : cutAt sep (closed sep pieces ++ text) = pieces ++ cutAt sep text := by
  induction pieces with
  | nil => rfl
  | cons piece pieces ih =>
    obtain ⟨free, rest⟩ := List.forall_mem_cons.1 h
    have step : closed sep (piece :: pieces) ++ text =
        piece ++ sep :: (closed sep pieces ++ text) := by
      simp [closed]
    rw [step, cutAt_append_cons, cutAt_of_notMem free, ih rest]
    rfl

/-- A new piece begins behind pieces that are closed. -/
theorem lastPiece_closed_append (sep : Char) (pieces : List (List Char)) (text : List Char) :
    lastPiece sep (closed sep pieces ++ text) = lastPiece sep text := by
  induction pieces with
  | nil => rfl
  | cons piece pieces ih =>
    have step : closed sep (piece :: pieces) ++ text =
        piece ++ sep :: (closed sep pieces ++ text) := by
      simp [closed]
    simp [step, ih]

theorem mem_joinWith {c : Char} {piece : List Char} {pieces : List (List Char)} (hc : c ∈ piece)
    (h : piece ∈ pieces) : c ∈ joinWith sep pieces := by
  induction pieces with
  | nil => cases h
  | cons first pieces ih =>
    by_cases last : pieces = []
    · subst last
      obtain rfl := List.mem_singleton.1 h
      exact hc
    · rw [joinWith_cons last, List.mem_append, List.mem_cons]
      rcases List.mem_cons.1 h with rfl | h
      · exact Or.inl hc
      · exact Or.inr (Or.inr (ih h))

theorem forall_mem_joinWith {q : Char → Prop} {pieces : List (List Char)} (between : q sep)
    (h : ∀ piece ∈ pieces, ∀ c ∈ piece, q c) : ∀ c ∈ joinWith sep pieces, q c := by
  induction pieces with
  | nil =>
    intro c hc
    cases hc
  | cons piece pieces ih =>
    obtain ⟨here, later⟩ := List.forall_mem_cons.1 h
    by_cases last : pieces = []
    · subst last
      exact here
    · intro c hc
      rw [joinWith_cons last, List.mem_append, List.mem_cons] at hc
      rcases hc with hc | rfl | hc
      · exact here c hc
      · exact between
      · exact ih later c hc

/-- The pieces of a text have no other characters than the text. -/
theorem mem_of_mem_cutAt {c : Char} {piece : List Char} (hc : c ∈ piece)
    (h : piece ∈ cutAt sep text) : c ∈ text := by
  rw [← joinWith_cutAt sep text]
  exact mem_joinWith hc h

/-- The pieces of a text end with those of another if the text is the other one, or ends with it
behind a separator. -/
theorem cutAt_suffix_cutAt_iff :
    cutAt sep a <:+ cutAt sep b ↔ b = a ∨ sep :: a <:+ b := by
  constructor
  · rintro ⟨front, eq⟩
    by_cases whole : front = []
    · left
      rw [← joinWith_cutAt sep b, ← eq, whole, List.nil_append, joinWith_cutAt]
    · right
      refine ⟨joinWith sep front, ?_⟩
      calc joinWith sep front ++ sep :: a
          = closed sep front ++ a := by rw [closed_eq whole, List.append_assoc]; rfl
        _ = joinWith sep (front ++ cutAt sep a) := by
          simp [joinWith_append (cutAt_ne_nil sep a)]
        _ = b := by simp [eq]
  · rintro (rfl | ⟨front, rfl⟩)
    · exact List.suffix_rfl
    · rw [cutAt_append_cons]
      exact List.suffix_append _ _

theorem replaceChar_of_notMem {old : Char} (h : old ∉ text) (new : Char) :
    replaceChar old new text = text := by
  have same : ∀ c ∈ text, (if c = old then new else c) = c := by
    intro c hc
    apply if_neg
    rintro rfl
    exact h hc
  rw [replaceChar, List.map_congr_left same, List.map_id']

/-- Pieces that do not hold their separator are joined by the character that replaces it. -/
theorem replaceChar_joinWith {old : Char} (new : Char) {pieces : List (List Char)}
    (free : ∀ piece ∈ pieces, old ∉ piece) :
    replaceChar old new (joinWith old pieces) = joinWith new pieces := by
  induction pieces with
  | nil => rfl
  | cons piece pieces ih =>
    obtain ⟨first, later⟩ := List.forall_mem_cons.1 free
    by_cases last : pieces = []
    · subst last
      exact replaceChar_of_notMem first new
    · have split (a b : List Char) : replaceChar old new (a ++ old :: b) =
          replaceChar old new a ++ new :: replaceChar old new b := by
        simp [replaceChar]
      rw [joinWith_cons last, joinWith_cons last, split, replaceChar_of_notMem first, ih later]

theorem exists_joinWith_append (sep : Char) {pieces : List (List Char)} (h : pieces ≠ [])
    (later : List (List Char)) :
    ∃ rest, joinWith sep (pieces ++ later) = joinWith sep pieces ++ rest := by
  induction pieces with
  | nil => exact absurd rfl h
  | cons piece pieces ih =>
    cases pieces with
    | nil =>
      cases later with
      | nil => exact ⟨[], by simp⟩
      | cons next later => exact ⟨sep :: joinWith sep (next :: later), rfl⟩
    | cons next pieces =>
      obtain ⟨rest, eq⟩ := ih (by simp)
      refine ⟨rest, ?_⟩
      have more : next :: pieces ++ later ≠ [] := by simp
      rw [List.cons_append, joinWith_cons more, eq, joinWith_cons (List.cons_ne_nil next pieces),
        List.append_assoc, List.cons_append]

/-- Some neighbouring pieces are a part of the text, behind as many separators as there are pieces
in front of them. -/
theorem exists_part {inner : List (List Char)} {first stop : Nat}
    (h : ((cutAt sep text).take stop).drop first = inner) (some : inner ≠ []) :
    ∃ front rest, text = front ++ (joinWith sep inner ++ rest) ∧ front.count sep = first ∧
      ∀ tail, lastPiece sep (front ++ tail) = lastPiece sep tail := by
  have pieces := List.take_append_drop first ((cutAt sep text).take stop)
  have whole := List.take_append_drop stop (cutAt sep text)
  have length : (((cutAt sep text).take stop).take first).length = first := by
    have := List.length_pos_iff.2 some
    rw [← h, List.length_drop] at this
    rw [List.length_take]
    omega
  have free : ∀ piece ∈ ((cutAt sep text).take stop).take first, sep ∉ piece := by
    intro piece mem
    exact not_mem_of_mem_cutAt (List.mem_of_mem_take (List.mem_of_mem_take mem))
  rw [h] at pieces
  obtain ⟨rest, joined⟩ := exists_joinWith_append sep some ((cutAt sep text).drop stop)
  refine ⟨closed sep (((cutAt sep text).take stop).take first), rest, ?_, ?_, ?_⟩
  · rw [← joined, ← joinWith_append (by simp [some]), ← List.append_assoc, pieces, whole,
      joinWith_cutAt]
  · rw [count_closed free, length]
  · exact lastPiece_closed_append sep _

end CodeGraph.Text
