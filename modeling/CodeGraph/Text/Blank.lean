/-!
# Blank characters

`isBlank` is the class of characters that separate words: the Unicode white space together with the
four information separators.  The trimming functions drop runs of a class at either end of a text;
`trim` drops blanks.
-/

namespace CodeGraph.Text

/-- A character that separates words. -/
def isBlank (c : Char) : Bool :=
  let n := c.toNat
  (0x09 ≤ n && n ≤ 0x0D) || (0x1C ≤ n && n ≤ 0x20) || n == 0x85 || n == 0xA0 || n == 0x1680 ||
    (0x2000 ≤ n && n ≤ 0x200A) || n == 0x2028 || n == 0x2029 || n == 0x202F || n == 0x205F ||
    n == 0x3000

/-! ## Trimming -/

/-- Drops the longest run of a class at the end. -/
def dropEnd (p : Char → Bool) (text : List Char) : List Char :=
  (text.reverse.dropWhile p).reverse

/-- Drops the longest run of a class at both ends. -/
def dropEnds (p : Char → Bool) (text : List Char) : List Char := dropEnd p (text.dropWhile p)

/-- Drops the blanks at the end. -/
def trimEnd (text : List Char) : List Char := dropEnd isBlank text

/-- Drops the blanks at both ends. -/
def trim (text : List Char) : List Char := dropEnds isBlank text

@[simp]
theorem dropEnd_nil (p : Char → Bool) : dropEnd p [] = [] := rfl

/-- What is dropped at the end consists of the class. -/
theorem dropEnd_append (p : Char → Bool) (text : List Char) :
    ∃ tail, text = dropEnd p text ++ tail ∧ ∀ c ∈ tail, p c = true := by
  refine ⟨(text.reverse.takeWhile p).reverse, ?_, ?_⟩
  · rw [dropEnd, ← List.reverse_append, List.takeWhile_append_dropWhile, List.reverse_reverse]
  · intro c hc
    exact List.all_eq_true.1 List.all_takeWhile c (List.mem_reverse.1 hc)

end CodeGraph.Text
