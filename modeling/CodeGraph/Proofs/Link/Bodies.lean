import CodeGraph.Proofs.Survey.Sites

/-!
# The body of a node

The tree places a node by the bytes of its file, and the body of a declaration is cut out of the
text by its lines.  Both agree: the body of a declaration that stands at a node is there, it holds
the text of the node, and it consists of the lines that the node touches (`bodyOf_spanOf`).  If the
node ends behind a line feed, the line that follows is touched and belongs to the body.
-/

namespace CodeGraph

open CodeGraph.Text

/-! ## The lines around a part of a text -/

namespace Text

variable {sep : Char} {a b text : List Char}

/-- The first piece. -/
def firstPiece (sep : Char) (text : List Char) : List Char := (cutAt sep text).headD []

theorem firstPiece_of_cutAt {piece : List Char} {pieces : List (List Char)}
    (h : cutAt sep text = piece :: pieces) : firstPiece sep text = piece := by
  rw [firstPiece, h]
  rfl

/-- A text is its first piece, with a separator behind it if anything follows. -/
theorem eq_firstPiece_or (sep : Char) (text : List Char) :
    sep ∉ firstPiece sep text ∧
      ∃ rest, text = firstPiece sep text ++ rest ∧ (rest = [] ∨ rest.head? = some sep) := by
  obtain ⟨piece, pieces, cut⟩ := List.exists_cons_of_ne_nil (cutAt_ne_nil sep text)
  rw [firstPiece_of_cutAt cut]
  refine ⟨not_mem_of_mem_cutAt (cut ▸ List.mem_cons_self), ?_⟩
  have joined := joinWith_cutAt sep text
  rw [cut] at joined
  by_cases last : pieces = []
  · subst last
    exact ⟨[], by rw [← joined, List.append_nil]; rfl, Or.inl rfl⟩
  · rw [joinWith_cons last] at joined
    exact ⟨_, joined.symm, Or.inr rfl⟩

/-- The pieces that a part at the beginning of a text touches are the part and what its last piece
lacks. -/
theorem joinWith_take_cutAt (sep : Char) (a b : List Char) :
    joinWith sep ((cutAt sep (a ++ b)).take (a.count sep + 1)) = a ++ firstPiece sep b := by
  induction a with
  | nil =>
    obtain ⟨piece, pieces, cut⟩ := List.exists_cons_of_ne_nil (cutAt_ne_nil sep b)
    rw [firstPiece_of_cutAt cut, List.nil_append, cut]
    rfl
  | cons c a ih =>
    by_cases h : c = sep
    · subst h
      have more : (cutAt c (a ++ b)).take (a.count c + 1) ≠ [] := by
        simp [cutAt_ne_nil]
      rw [List.cons_append, cutAt, if_pos rfl, List.count_cons_self, List.take_succ_cons,
        joinWith_cons more, ih]
      rfl
    · obtain ⟨piece, pieces, first, both⟩ := cutAt_cons_of_ne h (a ++ b)
      rw [first, List.take_succ_cons] at ih
      rw [List.cons_append, both, List.count_cons_of_ne h, List.take_succ_cons, List.cons_append,
        ← ih]
      cases pieces.take (a.count sep) <;> rfl

end Text

/-- The body goes from the beginning of the line in which the byte offset `start` lies to the end of
the line in which the offset `stop` lies. -/
def SpansLines (content : List Char) (start stop : Nat) (body : List Char) : Prop :=
  ∃ front left part right back,
    body = left ++ (part ++ right) ∧ content = front ++ (body ++ back) ∧
      (Utf8.encode (front ++ left)).length = start ∧
      (Utf8.encode (front ++ (left ++ part))).length = stop ∧
      (front = [] ∨ front.getLast? = some '\n') ∧ '\n' ∉ left ∧
      '\n' ∉ right ∧ (back = [] ∨ back.head? = some '\n')

/-- The lines from the one in which `part` begins to the one in which it ends. -/
theorem bodyOf_around (before part after : List Char) :
    bodyOf (cutAt '\n' (before ++ (part ++ after))) (before.count '\n' + 1)
        ((before ++ part).count '\n' + 1) =
      some (lastPiece '\n' before ++ (part ++ firstPiece '\n' after)) := by
  have free : (lastPiece '\n' before).count '\n' = 0 :=
    List.count_eq_zero.2 (eq_lastPiece_or '\n' before).1
  have inside : ¬ (((before.count '\n' : Int) + 1 < 1) ∨
      ((cutAt '\n' (before ++ (part ++ after))).length : Int) < before.count '\n' + 1) := by
    rw [length_cutAt, List.count_append]
    omega
  have last : ¬ (((before ++ part).count '\n' : Int) + 1 < 0) := by omega
  have first : ((before.count '\n' : Int) + 1 - 1).toNat = before.count '\n' := by omega
  have stop : (((before ++ part).count '\n' : Int) + 1).toNat =
      before.count '\n' + ((lastPiece '\n' before ++ part).count '\n' + 1) := by
    rw [List.count_append, List.count_append, free]
    omega
  unfold bodyOf
  rw [if_neg inside]
  dsimp only
  rw [if_neg last, first, stop, List.drop_take, Nat.add_sub_cancel_left, drop_cutAt,
    ← List.append_assoc, joinWith_take_cutAt, List.append_assoc]

theorem spansLines_around (before part after : List Char) :
    SpansLines (before ++ (part ++ after)) (Utf8.encode before).length
      (Utf8.encode (before ++ part)).length
      (lastPiece '\n' before ++ (part ++ firstPiece '\n' after)) := by
  obtain ⟨freeLeft, left⟩ := eq_lastPiece_or '\n' before
  obtain ⟨freeRight, back, right, ends⟩ := eq_firstPiece_or '\n' after
  obtain ⟨front, whole, begins⟩ : ∃ front, before = front ++ lastPiece '\n' before ∧
      (front = [] ∨ front.getLast? = some '\n') := by
    rcases left with whole | ⟨front, whole⟩
    · exact ⟨[], whole, Or.inl rfl⟩
    · refine ⟨front ++ ['\n'], ?_, Or.inr List.getLast?_concat⟩
      rwa [List.append_assoc]
  refine ⟨front, _, part, _, back, rfl, ?_, ?_, ?_, begins, freeLeft, freeRight, ends⟩
  · conv_lhs => rw [whole, right]
    simp only [List.append_assoc]
  · rw [← whole]
  · rw [← List.append_assoc, ← whole]

/-- The lines of a body are the ones from `first` to `last`. -/
theorem cutAt_of_bodyOf {content body : List Char} {first last : Int}
    (h : bodyOf (cutAt '\n' content) first last = some body) (ordered : first ≤ last) :
    cutAt '\n' body = ((cutAt '\n' content).take last.toNat).drop (first - 1).toNat := by
  unfold bodyOf at h
  split_ifs at h with outside negative
  · omega
  · cases h
    have length : (((cutAt '\n' content).take last.toNat).drop (first - 1).toNat).length ≠ 0 := by
      rw [List.length_drop, List.length_take]
      omega
    apply cutAt_joinWith
    · exact List.length_pos_iff.1 (Nat.pos_of_ne_zero length)
    · intro piece mem
      exact not_mem_of_mem_cutAt (List.mem_of_mem_take (List.mem_of_mem_drop mem))

/-! ## The part between two borders -/

theorem length_encode_take_le {j k : Nat} (h : j ≤ k) (text : List Char) :
    (Utf8.encode (text.take j)).length ≤ (Utf8.encode (text.take k)).length := by
  obtain ⟨more, rest⟩ := List.take_prefix_take_left (l := text) h
  rw [← rest, Utf8.encode_append, List.length_append]
  exact Nat.le_add_right _ _

/-- Two offsets between characters cut the text into three parts. -/
theorem IsBorder.exists_part {content : List Char} {start stop : Nat}
    (first : IsBorder content start)
    (last : IsBorder content stop) (ordered : start ≤ stop) :
    ∃ before part after, content = before ++ (part ++ after) ∧
      (Utf8.encode before).length = start ∧ (Utf8.encode (before ++ part)).length = stop := by
  obtain ⟨j, -, first⟩ := first
  obtain ⟨k, -, last⟩ := last
  rcases Nat.le_total j k with h | h
  · obtain ⟨part, whole⟩ := List.take_prefix_take_left (l := content) h
    refine ⟨content.take j, part, content.drop k, ?_, first, by rw [whole, last]⟩
    rw [← List.append_assoc, whole, List.take_append_drop]
  · -- Both offsets are the same one, as no character has fewer than one byte.
    have least := length_encode_take_le h content
    refine ⟨content.take k, [], content.drop k, ?_, by omega, by rw [List.append_nil, last]⟩
    rw [List.nil_append, List.take_append_drop]

/-- The text of the node between two parts of the source. -/
theorem toList_textOf {file : ParsedFile} {t : Tree} {before part after : List Char}
    (source : file.source = Utf8.encode (before ++ (part ++ after)))
    (start : (Utf8.encode before).length = t.label.start)
    (stop : (Utf8.encode (before ++ part)).length = t.label.stop) :
    (file.textOf t).toList = part := by
  have bytes : slice file.source t.label.start t.label.stop = Utf8.encode part := by
    rw [slice, source, ← List.append_assoc, Utf8.encode_append, ← stop, List.take_left,
      Utf8.encode_append, ← start, List.drop_left]
  simp [ParsedFile.textOf, bytes]

/-! ## The body of a node -/

/-- The body of a declaration that stands at a node whose ends are between characters: it is there,
it holds the text of the node, and its lines are those that the node touches. -/
theorem bodyOf_spanOf {file : ParsedFile} {content : List Char} {t : Tree} {d : Declaration}
    (source : file.source = Utf8.encode content) (first : IsBorder content t.label.start)
    (last : IsBorder content t.label.stop) (ordered : t.label.start ≤ t.label.stop)
    (located : d.span = file.spanOf t) :
    ∃ body, bodyOf (cutAt '\n' content) d.span.start.line d.span.stop.line = some body ∧
      (file.textOf t).toList <:+: body ∧ SpansLines content t.label.start t.label.stop body ∧
      cutAt '\n' body =
        ((cutAt '\n' content).take d.span.stop.line.toNat).drop (d.span.start.line - 1).toNat := by
  obtain ⟨before, part, after, rfl, start, stop⟩ := first.exists_part last ordered
  have text := toList_textOf source start stop
  have startLine : d.span.start.line = before.count '\n' + 1 := by
    rw [located, ParsedFile.spanOf, source, ← start]
    exact congrArg Position.line (positionOf_encode before (part ++ after))
  have stopLine : d.span.stop.line = (before ++ part).count '\n' + 1 := by
    rw [located, ParsedFile.spanOf, source, ← stop, ← List.append_assoc]
    exact congrArg Position.line (positionOf_encode (before ++ part) after)
  have body := bodyOf_around before part after
  rw [← startLine, ← stopLine] at body
  refine ⟨_, body, ?_, ?_, cutAt_of_bodyOf body ?_⟩
  · rw [text]
    exact List.infix_append' _ _ _
  · rw [← start, ← stop]
    exact spansLines_around before part after
  · rw [startLine, stopLine, List.count_append]
    omega

/-- A declaration that stands at the node `😀x` and the line feed behind it, at the end of its
file. -/
def faceFile : ParsedFile :=
  ⟨"f.py", .python, "python", Utf8.encode "é\n😀x\n".toList, .node ⟨"module", true, 3, 9, none⟩ [],
    false⟩

/-- The line behind the last line feed is touched, so the body ends with a line feed. -/
theorem bodyOf_spanOf_face :
    let content := "é\n😀x\n".toList
    let d := faceFile.declaration .function faceFile.tree (Place.root faceFile.tree) none {}
    IsBorder content 3 ∧ IsBorder content 9 ∧
      bodyOf (cutAt '\n' content) d.span.start.line d.span.stop.line = some "😀x\n".toList ∧
      SpansLines content 3 9 "😀x\n".toList := by
  intro content d
  have first : IsBorder content faceFile.tree.label.start := by decide
  have last : IsBorder content faceFile.tree.label.stop := by decide
  obtain ⟨body, here, -, spans, -⟩ :=
    @bodyOf_spanOf faceFile content faceFile.tree d rfl first last (by decide) rfl
  have same : body = "😀x\n".toList := by
    have known : bodyOf (cutAt '\n' content) d.span.start.line d.span.stop.line =
      some "😀x\n".toList := by decide +kernel
    exact Option.some.inj (here.symm.trans known)
  subst same
  exact ⟨first, last, here, spans⟩

end CodeGraph
