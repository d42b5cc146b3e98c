import CodeGraph.Text.Blank
import CodeGraph.Text.Word
import Mathlib.Data.List.TakeWhile

/-!
# Runs of a class

A run of a class ends where the text does not go on with the class (`Stops`): there it is taken as a
whole and dropped as a whole (`takeWhile_run`, `dropWhile_run`).  Trimming drops the blanks around a
text that begins and ends with other characters (`IsTrimmed.trim_padded`).  Word characters are no
blanks (`isBlank_eq_false`).
-/

namespace CodeGraph.Text

variable {p : Char → Bool} {run rest text : List Char}

/-- The text does not go on with a character of the class. -/
def Stops (p : Char → Bool) (text : List Char) : Prop := ∀ c, text.head? = some c → p c = false

@[simp]
theorem stops_nil : Stops p [] := fun _ h => by cases h

theorem stops_cons {c : Char} (h : p c = false) (text : List Char) : Stops p (c :: text) := by
  rintro d hd
  obtain rfl := Option.some.inj hd
  exact h

theorem Stops.append (h : Stops p text) (some : text ≠ []) (rest : List Char) :
    Stops p (text ++ rest) := by
  obtain ⟨c, text, rfl⟩ := List.exists_cons_of_ne_nil some
  exact stops_cons (h c rfl) _

/-- A text without characters of the class does not begin with one. -/
theorem stops_of_forall (h : ∀ c ∈ text, p c = false) : Stops p text :=
  fun c hc => h c (List.mem_of_mem_head? hc)

theorem Stops.takeWhile (h : Stops p text) : text.takeWhile p = [] := by
  cases text with
  | nil => rfl
  | cons c text => simp [h c rfl]

theorem Stops.dropWhile (h : Stops p text) : text.dropWhile p = text := by
  cases text with
  | nil => rfl
  | cons c text => simp [h c rfl]

theorem takeWhile_run (inside : ∀ c ∈ run, p c = true) (stops : Stops p rest) :
    (run ++ rest).takeWhile p = run := by
  rw [List.takeWhile_append_of_pos inside, stops.takeWhile, List.append_nil]

theorem dropWhile_run (inside : ∀ c ∈ run, p c = true) (stops : Stops p rest) :
    (run ++ rest).dropWhile p = rest := by
  rw [List.dropWhile_append_of_pos inside, stops.dropWhile]

/-! ## Tokens and trimming -/

theorem blank_space : ∀ c ∈ [' '], isBlank c = true := List.all_eq_true.1 (by decide)

/-- A text without blanks. -/
structure IsToken (text : List Char) : Prop where
  ne_nil : text ≠ []
  free : ∀ c ∈ text, isBlank c = false

theorem IsToken.stops (h : IsToken text) (rest : List Char) : Stops isBlank (text ++ rest) :=
  (stops_of_forall h.free).append h.ne_nil rest

/-- A text that begins and ends with other characters than blanks. -/
structure IsTrimmed (text : List Char) : Prop where
  ne_nil : text ≠ []
  first : Stops isBlank text
  last : Stops isBlank text.reverse

theorem IsToken.isTrimmed (h : IsToken text) : IsTrimmed text where
  ne_nil := h.ne_nil
  first := stops_of_forall h.free
  last := stops_of_forall fun c hc => h.free c (List.mem_reverse.1 hc)

theorem IsTrimmed.append {a b : List Char} (ha : IsTrimmed a) (hb : IsTrimmed b)
    (between : List Char) : IsTrimmed (a ++ (between ++ b)) where
  ne_nil := by simp [ha.ne_nil]
  first := ha.first.append ha.ne_nil _
  last := by
    rw [List.reverse_append, List.reverse_append, List.append_assoc]
    exact hb.last.append (by simp [hb.ne_nil]) _

/-- Trimming drops the blanks around a trimmed text. -/
theorem IsTrimmed.trim_padded (h : IsTrimmed text) {front back : List Char}
    (before : ∀ c ∈ front, isBlank c = true) (behind : ∀ c ∈ back, isBlank c = true) :
    trim (front ++ (text ++ back)) = text := by
  have backwards : ∀ c ∈ back.reverse, isBlank c = true := fun c hc =>
    behind c (List.mem_reverse.1 hc)
  rw [trim, dropEnds, dropWhile_run before (h.first.append h.ne_nil back), dropEnd,
    List.reverse_append, dropWhile_run backwards h.last, List.reverse_reverse]

theorem IsTrimmed.trim_eq_self (h : IsTrimmed text) : trim text = text := by
  have none : ∀ c ∈ ([] : List Char), isBlank c = true := fun c hc => by cases hc
  have trimmed := h.trim_padded none none
  rwa [List.append_nil, List.nil_append] at trimmed

/-! ## Blanks and words -/

/-- The code points of the blanks. -/
def blankCodes : List Nat :=
  [0x09, 0x0A, 0x0B, 0x0C, 0x0D, 0x1C, 0x1D, 0x1E, 0x1F, 0x20, 0x85, 0xA0, 0x1680, 0x2000, 0x2001,
    0x2002, 0x2003, 0x2004, 0x2005, 0x2006, 0x2007, 0x2008, 0x2009, 0x200A, 0x2028, 0x2029, 0x202F,
    0x205F, 0x3000]

theorem toNat_mem_blankCodes {c : Char} (h : isBlank c = true) : c.toNat ∈ blankCodes := by
  simp only [isBlank, Bool.or_eq_true, Bool.and_eq_true, decide_eq_true_eq, beq_iff_eq] at h
  simp only [blankCodes, List.mem_cons, List.not_mem_nil, or_false]
  omega

theorem isBlank_eq_false {c : Char} (h : isWord c = true) : isBlank c = false := by
  have noWord : ∀ n ∈ blankCodes, isWord (Char.ofNat n) = false := by decide +kernel
  cases blank : isBlank c with
  | false => rfl
  | true =>
    have none := noWord c.toNat (toNat_mem_blankCodes blank)
    rw [Char.ofNat_toNat, h] at none
    cases none

/-- Word characters differ from the others. -/
theorem ne_of_isWord {c d : Char} (h : isWord c = true) (hd : isWord d = false) : c ≠ d := by
  rintro rfl
  rw [h] at hd
  cases hd

end CodeGraph.Text
