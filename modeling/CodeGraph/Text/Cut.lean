/-!
# Cutting and joining

`cutAt sep` cuts a text at every occurrence of one character, and `joinWith sep` puts the pieces
together again (`joinWith_cutAt`); the pieces never hold the separator (`not_mem_of_mem_cutAt`).
`lines` cuts at every kind of line boundary instead and drops the boundaries.
-/

namespace CodeGraph.Text

/-! ## One separator -/

/-- The pieces of a text between the occurrences of `sep`: one more than there are occurrences. -/
@[grind =]
def cutAt (sep : Char) : List Char → List (List Char)
  | [] => [[]]
  | c :: rest =>
    if c = sep then [] :: cutAt sep rest
    else
      match cutAt sep rest with
      | [] => [[c]]
      | piece :: pieces => (c :: piece) :: pieces

/-- The pieces with `sep` between neighbours. -/
def joinWith (sep : Char) : List (List Char) → List Char
  | [] => []
  | [piece] => piece
  | piece :: next :: pieces => piece ++ sep :: joinWith sep (next :: pieces)

@[simp, grind .]
theorem cutAt_ne_nil (sep : Char) (text : List Char) : cutAt sep text ≠ [] := by
  cases text with
  | nil => simp [cutAt]
  | cons c rest =>
    grind

@[simp]
theorem joinWith_cons {sep : Char} {piece : List Char} {pieces : List (List Char)}
    (h : pieces ≠ []) : joinWith sep (piece :: pieces) = piece ++ sep :: joinWith sep pieces := by
  cases pieces with
  | nil => exact absurd rfl h
  | cons next pieces => rfl

@[simp]
theorem joinWith_cutAt (sep : Char) (text : List Char) : joinWith sep (cutAt sep text) = text := by
  induction text with
  | nil => rfl
  | cons c rest ih =>
    rw [cutAt]
    split
    · next h => rw [joinWith_cons (cutAt_ne_nil sep rest), ih, h]; rfl
    · split
      · next h => exact absurd h (cutAt_ne_nil sep rest)
      · next piece pieces h =>
        rw [h] at ih
        cases pieces with
        | nil => rw [joinWith] at ih ⊢; rw [ih]
        | cons next pieces =>
          rw [joinWith] at ih ⊢
          rw [← ih]; rfl

theorem not_mem_of_mem_cutAt {sep : Char} {text piece : List Char} (h : piece ∈ cutAt sep text) :
    sep ∉ piece := by
  induction text generalizing piece with
  | nil => simp only [cutAt, List.mem_singleton] at h; simp [h]
  | cons c rest ih =>
    grind

/-- The last piece. -/
def lastPiece (sep : Char) (text : List Char) : List Char := (cutAt sep text).getLastD []

/-! ## Lines -/

/-- A character that ends a line. -/
def isLineEnd (c : Char) : Bool :=
  let n := c.toNat
  (0x0A ≤ n && n ≤ 0x0D) || (0x1C ≤ n && n ≤ 0x1E) || n == 0x85 || n == 0x2028 || n == 0x2029

/-- The lines of a text of which `line` has been read (kept backwards); a carriage return and the
line feed after it are one boundary, and a boundary at the end opens no further line. -/
def linesFrom (line : List Char) : List Char → List (List Char)
  | [] => if line.isEmpty then [] else [line.reverse]
  | c :: rest =>
    if c = '\r' then
      match rest with
      | '\n' :: rest => line.reverse :: linesFrom [] rest
      | rest => line.reverse :: linesFrom [] rest
    else if isLineEnd c then line.reverse :: linesFrom [] rest
    else linesFrom (c :: line) rest

/-- The lines of a text, without their boundaries. -/
def lines (text : List Char) : List (List Char) := linesFrom [] text

/-- Text with the boundaries CR LF and CR written as LF. -/
def unifyLineEnds : List Char → List Char
  | [] => []
  | '\r' :: '\n' :: rest => '\n' :: unifyLineEnds rest
  | '\r' :: rest => '\n' :: unifyLineEnds rest
  | c :: rest => c :: unifyLineEnds rest

/-! ## Searching -/

/-- Some part of `text` is `part`. -/
def containsPart (part : List Char) : List Char → Bool
  | [] => part.isEmpty
  | c :: rest => part.isPrefixOf (c :: rest) || containsPart part rest

@[simp]
theorem containsPart_iff {part text : List Char} :
    containsPart part text = true ↔ part <:+: text := by
  induction text with
  | nil => simp [containsPart]
  | cons c rest ih =>
    rw [containsPart, Bool.or_eq_true, List.isPrefixOf_iff_prefix, ih, List.infix_cons_iff]

/-- Replaces every occurrence of one character by another. -/
def replaceChar (old new : Char) (text : List Char) : List Char :=
  text.map fun c => if c = old then new else c

/-- Drops the first occurrence of a character. -/
def eraseFirst (c : Char) (text : List Char) : List Char := text.erase c

end CodeGraph.Text
