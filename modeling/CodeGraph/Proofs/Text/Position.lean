import CodeGraph.Link.Resolve
import CodeGraph.ParsedFile
import CodeGraph.Proofs.Text.Pieces
import CodeGraph.Proofs.Text.Utf8

/-!
# Positions in a text

The position of a place in a text is made of the number of line feeds before it and of what stands
behind the last of them (`positionIn_eq`, `positionOf_encode`).  So it lies on a line of the text,
and the text can be found again from it (`textFrom_positionIn`).  Columns are counted in characters
for a place in a text, and in bytes for a place in a source.
-/

namespace CodeGraph

open CodeGraph.Text

variable {lines : List (List Char)} {p : Position}

namespace Position

/-- The position is that of a character of the lines, or of the end of one of them. -/
structure IsIn (p : Position) (lines : List (List Char)) : Prop where
  one_le_line : 1 ≤ p.line
  line_le : p.line ≤ lines.length
  column_nonneg : 0 ≤ p.column
  column_le : ∀ line, lines[(p.line - 1).toNat]? = some line → p.column ≤ line.length

/-- The position stands behind the beginning of one of the lines; `width` tells its column. -/
def LiesIn (width : List Char → Nat) (p : Position) (lines : List (List Char)) : Prop :=
  ∃ (n : Nat) (line front : List Char),
    lines[n]? = some line ∧ front <+: line ∧ p = ⟨n + 1, width front⟩

/-- The text from a position on. -/
def textFrom (p : Position) (text : List Char) : List Char :=
  (joinWith '\n' ((cutAt '\n' text).drop (p.line - 1).toNat)).drop p.column.toNat

theorem LiesIn.isIn (h : p.LiesIn List.length lines) : p.IsIn lines := by
  obtain ⟨n, line, front, here, start, rfl⟩ := h
  have bound : n < lines.length := (List.getElem?_eq_some_iff.1 here).1
  have short := start.length_le
  refine ⟨?_, ?_, ?_, ?_⟩ <;> dsimp only
  · omega
  · omega
  · omega
  · intro other there
    have same : ((n : Int) + 1 - 1).toNat = n := by omega
    rw [same, here] at there
    cases there
    omega

/-- The number of bytes of a text. -/
def byteWidth (text : List Char) : Nat := (Utf8.encode text).length

/-- In lines of one byte for each character the two ways to count agree. -/
theorem LiesIn.characters (h : p.LiesIn byteWidth lines)
    (ascii : ∀ line ∈ lines, ∀ c ∈ line, c.toNat < 0x80) : p.LiesIn List.length lines := by
  obtain ⟨n, line, front, here, start, rfl⟩ := h
  have same : byteWidth front = front.length := by
    apply Utf8.length_encode_of_ascii
    intro c hc
    exact ascii line (List.mem_of_getElem? here) c (start.subset hc)
  exact ⟨n, line, front, here, start, by rw [same]⟩

end Position

/-! ## Places in a text -/

theorem positionIn_eq (first : Int) (text : List Char) (offset : Nat) :
    positionIn first text offset =
      ⟨first + (text.take offset).count '\n', (lastPiece '\n' (text.take offset)).length⟩ := by
  simp only [positionIn]
  rw [takeWhile_reverse, List.length_reverse]

theorem liesIn_positionIn (text : List Char) (offset : Nat) :
    (positionIn 1 text offset).LiesIn List.length (cutAt '\n' text) := by
  obtain ⟨piece, here, start⟩ := exists_piece '\n' (text.take offset) (text.drop offset)
  rw [List.take_append_drop] at here
  refine ⟨_, piece, _, here, start, ?_⟩
  rw [positionIn_eq, Int.add_comm]

/-- From the position of a place on, the text is the one behind the place. -/
theorem textFrom_positionIn (text : List Char) (offset : Nat) :
    (positionIn 1 text offset).textFrom text = text.drop offset := by
  have line : (1 + ((text.take offset).count '\n' : Int) - 1).toNat =
      (text.take offset).count '\n' := by omega
  have pieces := drop_cutAt '\n' (text.take offset) (text.drop offset)
  rw [List.take_append_drop] at pieces
  rw [positionIn_eq, Position.textFrom]
  dsimp only
  rw [line, pieces]
  simp

/-! ## Places in a body -/

theorem bodyOf_eq_some {body : List Char} {first last : Int}
    (h : bodyOf lines first last = some body) :
    1 ≤ first ∧ ∃ stop, body = joinWith '\n' ((lines.take stop).drop (first - 1).toNat) := by
  unfold bodyOf at h
  split_ifs at h with outside
  all_goals
    have one_le : 1 ≤ first := by omega
    exact ⟨one_le, _, (Option.some.inj h).symm⟩

/-- A body is a part of the text of its lines, and the positions in it are those in the text. -/
theorem exists_body {content body : List Char} {first last : Int}
    (h : bodyOf (cutAt '\n' content) first last = some body) (nonempty : body ≠ []) :
    ∃ front rest, content = front ++ (body ++ rest) ∧ (front.count '\n' : Int) + 1 = first ∧
      lastPiece '\n' front = [] ∧
      ∀ k ≤ body.length, positionIn first body k = positionIn 1 content (front.length + k) := by
  obtain ⟨one_le, stop, joined⟩ := bodyOf_eq_some h
  have some : ((cutAt '\n' content).take stop).drop (first - 1).toNat ≠ [] := by
    intro none
    rw [none] at joined
    exact nonempty joined
  obtain ⟨front, rest, split, count, last⟩ := exists_part rfl some
  rw [← joined] at split
  have line : (front.count '\n' : Int) + 1 = first := by omega
  have fresh : lastPiece '\n' front = [] := by
    rw [← List.append_nil front, last]
    rfl
  refine ⟨front, rest, split, line, fresh, fun k hk => ?_⟩
  have taken : content.take (front.length + k) = front ++ body.take k := by
    rw [split, List.take_length_add_append, List.take_append_of_le_length hk]
  rw [positionIn_eq, positionIn_eq, taken, List.count_append, last]
  congr 1
  omega

/-! ## Places in a source -/

theorem positionOf_encode (before after : List Char) :
    positionOf (Utf8.encode (before ++ after)) (Utf8.encode before).length =
      ⟨before.count '\n' + 1, Position.byteWidth (lastPiece '\n' before)⟩ := by
  simp only [positionOf, Position.byteWidth]
  rw [Utf8.encode_append, List.take_left, Utf8.count_encode]
  obtain ⟨free, whole⟩ := eq_lastPiece_or '\n' before
  have column : (((Utf8.encode before).reverse.takeWhile (· ≠ 10)).length : Int) =
      (Utf8.encode (lastPiece '\n' before)).length := by
    have pure : (10 : UInt8) ∉ Utf8.encode (lastPiece '\n' before) := by
      rwa [Utf8.mem_encode_iff]
    rcases whole with whole | ⟨front, whole⟩
    · have := (takeWhile_reverse_of_notMem pure []).1
      rw [← whole] at this ⊢
      rw [this, List.length_reverse]
    · have := (takeWhile_reverse_of_notMem pure (Utf8.encode front)).2
      have bytes : Utf8.encode before =
          Utf8.encode front ++ 10 :: Utf8.encode (lastPiece '\n' before) := by
        conv_lhs => rw [whole]
        rw [Utf8.encode_append, Utf8.encode_cons]
        rfl
      rw [bytes, this, List.length_reverse]
  rw [column]

theorem liesIn_positionOf (before after : List Char) :
    (positionOf (Utf8.encode (before ++ after)) (Utf8.encode before).length).LiesIn
      Position.byteWidth (cutAt '\n' (before ++ after)) := by
  obtain ⟨piece, here, start⟩ := exists_piece '\n' before after
  exact ⟨_, piece, _, here, start, positionOf_encode before after⟩

end CodeGraph
