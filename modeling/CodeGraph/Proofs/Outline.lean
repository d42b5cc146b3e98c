import CodeGraph.Tree.Outline

/-!
# Reading outlines

An outline is read as a tree exactly if it is the outline of that tree (`ofOutline?_eq_some_iff`).
Open nodes stand for the part of the outline that has been read (`written`), and closing one of them
moves it among the children of the node around it.
-/

namespace CodeGraph.Tree

variable {depth : Nat} {opened further : List OpenNode} {nodes : List (Nat × Label)} {t : Tree}

/-! ## Closing -/

@[simp]
theorem outlinesAt_append (depth : Nat) (front back : List Tree) :
    outlinesAt depth (front ++ back) = outlinesAt depth front ++ outlinesAt depth back := by
  induction front with
  | nil => rfl
  | cons t front ih => rw [List.cons_append, outlinesAt, outlinesAt, ih, List.append_assoc]

theorem closeTo_of_length_le (h : opened.length ≤ depth) : closeTo depth opened = opened := by
  rcases opened with _ | ⟨inner, _ | ⟨outer, rest⟩⟩
  · rw [closeTo.eq_2 _ _ (by simp)]
  · rw [closeTo.eq_2 _ _ (by simp)]
  · have stays : ¬ depth ≤ (outer :: rest).length := by
      rw [List.length_cons] at h
      omega
    rw [closeTo, if_neg stays]

theorem closeTo_closeTo {less : Nat} (h : less ≤ depth) (opened : List OpenNode) :
    closeTo less (closeTo depth opened) = closeTo less opened := by
  fun_induction closeTo depth opened with
  | case1 inner outer rest deeper ih =>
    rw [ih, closeTo.eq_1 less inner, if_pos (Nat.le_trans h deeper)]
  | case2 => rfl
  | case3 => rfl

/-! ## What has been read -/

/-- The outline of the open nodes and of what has been closed inside them. -/
def written : List OpenNode → List (Nat × Label)
  | [] => []
  | inner :: rest =>
    written rest ++
      (rest.length, inner.label) :: outlinesAt (rest.length + 1) inner.children.reverse

theorem written_closeTo (depth : Nat) (opened : List OpenNode) :
    written (closeTo depth opened) = written opened := by
  fun_induction closeTo depth opened with
  | case1 inner outer rest deeper ih =>
    rw [ih]
    simp [written, outlinesAt, outlineAt, OpenNode.close]
  | case2 => rfl
  | case3 => rfl

theorem written_collect (h : collect opened nodes = some further) :
    written further = written opened ++ nodes := by
  induction nodes generalizing opened with
  | nil =>
    obtain rfl := Option.some.inj h
    rw [List.append_nil]
  | cons node rest ih =>
    obtain ⟨depth, label⟩ := node
    rw [collect] at h
    split at h
    · next fits =>
      rw [ih h, written, ← fits.1, written_closeTo, List.reverse_nil, outlinesAt, List.append_assoc,
        List.singleton_append]
    · cases h

/-! ## The outline of a tree -/

mutual

/-- The outline of a tree, read inside an open node, gives one more child of it. -/
theorem collect_outlineAt {depth : Nat} {opened below : List OpenNode} {top : OpenNode}
    (deep : below.length + 1 = depth) (h : closeTo depth opened = top :: below) (t : Tree)
    (rest : List (Nat × Label)) :
    ∃ further, collect opened (outlineAt depth t ++ rest) = collect further rest ∧
      closeTo depth further = ⟨top.label, t :: top.children⟩ :: below := by
  obtain ⟨label, children⟩ := t
  have deeper : (top :: below).length + 1 = depth + 1 := by rw [List.length_cons, deep]
  have opens : closeTo (depth + 1) (⟨label, []⟩ :: top :: below) = ⟨label, []⟩ :: top :: below :=
    closeTo_of_length_le (Nat.le_of_eq deeper)
  obtain ⟨further, same, closed⟩ := collect_outlinesAt deeper opens children rest
  refine ⟨further, ?_, ?_⟩
  · have fits : depth = (top :: below).length ∧ 0 < depth := ⟨deep.symm, deep ▸ Nat.succ_pos _⟩
    rw [outlineAt, List.cons_append, collect, h, if_pos fits, same]
  · -- the next closing takes the node itself
    have covered : depth ≤ (top :: below).length := Nat.le_of_eq deep.symm
    have stays (n : OpenNode) : closeTo depth (n :: below) = n :: below :=
      closeTo_of_length_le (Nat.le_of_eq deep)
    rw [← closeTo_closeTo (Nat.le_succ depth) further, closed, closeTo, if_pos covered, stays,
      OpenNode.close, List.append_nil, List.reverse_reverse]

/-- The outlines of some trees, read inside an open node, give further children of it. -/
theorem collect_outlinesAt {depth : Nat} {opened below : List OpenNode} {top : OpenNode}
    (deep : below.length + 1 = depth) (h : closeTo depth opened = top :: below) (ts : List Tree)
    (rest : List (Nat × Label)) :
    ∃ further, collect opened (outlinesAt depth ts ++ rest) = collect further rest ∧
      closeTo depth further = ⟨top.label, ts.reverse ++ top.children⟩ :: below := by
  cases ts with
  | nil => exact ⟨opened, rfl, h⟩
  | cons t ts =>
    obtain ⟨middle, first, around⟩ := collect_outlineAt deep h t (outlinesAt depth ts ++ rest)
    obtain ⟨further, later, closed⟩ := collect_outlinesAt deep around ts rest
    refine ⟨further, ?_, ?_⟩
    · rw [outlinesAt, List.append_assoc, first, later]
    · rw [closed, List.reverse_cons, List.append_assoc, List.singleton_append]

end

theorem ofOutline?_outline (t : Tree) : ofOutline? t.outline = some t := by
  obtain ⟨label, children⟩ := t
  have single : ([] : List OpenNode).length + 1 = 1 := rfl
  have start : closeTo 1 [⟨label, []⟩] = [⟨label, []⟩] := closeTo_of_length_le (Nat.le_refl 1)
  obtain ⟨further, same, closed⟩ := collect_outlinesAt single start children []
  have read : collect [⟨label, []⟩] (outlinesAt (0 + 1) children) = some further := by
    rwa [List.append_nil, collect] at same
  rw [outline, outlineAt, ofOutline?, read]
  simp only [closed, OpenNode.close, List.append_nil, List.reverse_reverse]

/-- An outline is read as a tree exactly if it is the outline of the tree. -/
theorem ofOutline?_eq_some_iff : ofOutline? nodes = some t ↔ nodes = t.outline := by
  constructor
  · intro h
    unfold ofOutline? at h
    split at h
    · next label rest =>
      split at h
      · next opened read =>
        split at h
        · next root closed =>
          obtain rfl := Option.some.inj h
          have whole := written_closeTo 1 opened
          rw [closed, written_collect read] at whole
          exact whole.symm
        · cases h
      · cases h
    · cases h
  · rintro rfl
    exact ofOutline?_outline t

end CodeGraph.Tree
