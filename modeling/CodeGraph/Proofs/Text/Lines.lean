import CodeGraph.Text.Cut
import Mathlib.Data.List.Flatten

/-!
# Lines and their boundaries

A text consists of its lines with a boundary behind each of them, of which the last one may be
missing (`HasLines`).  `lines` gives these lines (`hasLines_iff`), and they hold characters of the
text only (`HasLines.sublist`); joined again they do so but for the separators
(`filter_joinWith_sublist`).
-/

namespace CodeGraph.Text

/-- A boundary that stands before `rest`: a carriage return with its line feed, or one of the
characters that end a line. -/
inductive IsBoundary (rest : List Char) : List Char → Prop where
  | pair : IsBoundary rest ['\r', '\n']
  | single {c : Char} (ends : isLineEnd c = true) (alone : c = '\r' → rest.head? ≠ some '\n') :
      IsBoundary rest [c]

/-- The lines of a text; a boundary at the end opens no further line. -/
inductive HasLines : List Char → List (List Char) → Prop where
  | nil : HasLines [] []
  | last {line : List Char} (some : line ≠ []) (inside : ∀ c ∈ line, isLineEnd c = false) :
      HasLines line [line]
  | next {line boundary rest : List Char} {ls : List (List Char)}
      (inside : ∀ c ∈ line, isLineEnd c = false) (ends : IsBoundary rest boundary)
      (more : HasLines rest ls) : HasLines (line ++ (boundary ++ rest)) (line :: ls)

theorem hasLines_linesFrom {line : List Char} (inside : ∀ c ∈ line, isLineEnd c = false)
    (text : List Char) : HasLines (line.reverse ++ text) (linesFrom line text) := by
  have backwards {line : List Char} (inside : ∀ c ∈ line, isLineEnd c = false) :
      ∀ c ∈ line.reverse, isLineEnd c = false := fun c hc => inside c (List.mem_reverse.1 hc)
  have none : ∀ c ∈ [], isLineEnd c = false := List.forall_mem_nil _
  fun_induction linesFrom line text with
  | case1 line empty =>
    rw [List.isEmpty_iff.1 empty]
    exact .nil
  | case2 line some =>
    rw [List.append_nil]
    exact .last (by simpa using some) (backwards inside)
  | case3 line rest ih => exact .next (backwards inside) .pair (ih none)
  | case4 line rest alone ih =>
    refine .next (backwards inside) (.single (by decide) fun _ first => ?_) (ih none)
    obtain ⟨rest, rfl⟩ := List.head?_eq_some_iff.1 first
    exact alone rest rfl
  | case5 line c rest other ends ih =>
    exact .next (backwards inside) (.single ends fun same => absurd same other) (ih none)
  | case6 line c rest other ends ih =>
    have longer : ∀ d ∈ c :: line, isLineEnd d = false := by
      intro d hd
      rcases List.mem_cons.1 hd with rfl | hd
      · exact Bool.eq_false_iff.2 ends
      · exact inside d hd
    have more := ih longer
    rwa [List.reverse_cons, List.append_assoc] at more

theorem hasLines_lines (text : List Char) : HasLines text (lines text) := by
  show HasLines ([].reverse ++ text) (linesFrom [] text)
  exact hasLines_linesFrom (List.forall_mem_nil _) text

theorem linesFrom_cons_of_ne {c : Char} (other : c ≠ '\r') (line rest : List Char) :
    linesFrom line (c :: rest) =
      if isLineEnd c then line.reverse :: lines rest else linesFrom (c :: line) rest := by
  rw [linesFrom.eq_def]
  exact if_neg other

theorem linesFrom_append {more : List Char} (inside : ∀ c ∈ more, isLineEnd c = false)
    (line text : List Char) :
    linesFrom line (more ++ text) = linesFrom (more.reverse ++ line) text := by
  induction more generalizing line with
  | nil => rfl
  | cons c more ih =>
    obtain ⟨plain, inside⟩ := List.forall_mem_cons.1 inside
    have other : c ≠ '\r' := by
      rintro rfl
      exact absurd plain (by decide)
    rw [List.cons_append, linesFrom_cons_of_ne other, if_neg (Bool.eq_false_iff.1 plain), ih inside,
      List.reverse_cons, List.append_assoc, List.singleton_append]

theorem linesFrom_boundary {boundary rest : List Char} (ends : IsBoundary rest boundary)
    (line : List Char) : linesFrom line (boundary ++ rest) = line.reverse :: lines rest := by
  cases ends with
  | pair => rfl
  | @single c ends alone =>
    rw [List.singleton_append]
    by_cases same : c = '\r'
    · subst same
      rw [linesFrom.eq_def]
      cases rest with
      | nil => rfl
      | cons d rest =>
        have apart : d ≠ '\n' := fun feed => alone rfl (congrArg some feed)
        simp [apart, lines]
    · rw [linesFrom_cons_of_ne same, if_pos ends]

/-- A text has no other lines than those that `lines` gives. -/
theorem HasLines.eq_lines {text : List Char} {ls : List (List Char)} (h : HasLines text ls) :
    ls = lines text := by
  induction h with
  | nil => rfl
  | @last line some inside =>
    have whole := linesFrom_append inside [] []
    rw [List.append_nil, List.append_nil] at whole
    rw [lines, whole, linesFrom, List.reverse_reverse, if_neg (by simpa using some)]
  | next inside ends more ih =>
    rw [lines, linesFrom_append inside, linesFrom_boundary ends, List.append_nil,
      List.reverse_reverse, ih]

theorem hasLines_iff {text : List Char} {ls : List (List Char)} :
    HasLines text ls ↔ ls = lines text := by
  constructor
  · exact HasLines.eq_lines
  · rintro rfl
    exact hasLines_lines text

theorem HasLines.sublist {text : List Char} {ls : List (List Char)} (h : HasLines text ls) :
    ls.flatten.Sublist text := by
  induction h with
  | nil => exact .slnil
  | last some inside => simp
  | next inside ends more ih =>
    rw [List.flatten_cons]
    exact (List.Sublist.refl _).append (ih.trans (List.sublist_append_right _ _))

theorem filter_joinWith_sublist (sep : Char) (pieces : List (List Char)) :
    ((joinWith sep pieces).filter (· ≠ sep)).Sublist pieces.flatten := by
  induction pieces with
  | nil => exact .slnil
  | cons piece pieces ih =>
    cases pieces with
    | nil =>
      rw [joinWith, List.flatten_singleton]
      exact List.filter_sublist
    | cons next pieces =>
      rw [joinWith, List.filter_append, List.filter_cons_of_neg (by simp), List.flatten_cons]
      exact List.filter_sublist.append ih

end CodeGraph.Text
