import CodeGraph.Import.Statement
import CodeGraph.Proofs.Text.Runs

/-!
# What the pieces of a phrase read

Each piece of a phrase reads what it stands for at the front of a text and leaves the rest: a word
(`word?_append`), blanks, a run of a class (`run?_append`), a text between quotation marks
(`quoted?_append`) or braces (`braced?_append`).
-/

namespace CodeGraph.Import

open CodeGraph.Text

variable {text rest : List Char}

/-! ## Words and blanks -/

@[simp]
theorem word?_append (word : String) (rest : List Char) :
    word? word (word.toList ++ rest) = some rest := by
  unfold word?
  rw [if_pos (List.isPrefixOf_iff_prefix.2 (List.prefix_append _ _)), ← String.length_toList,
    List.drop_left]

theorem eq_append_of_word? {word : String} (h : word? word text = some rest) :
    text = word.toList ++ rest := by
  unfold word? at h
  split_ifs at h with front
  obtain ⟨behind, rfl⟩ := List.isPrefixOf_iff_prefix.1 front
  rw [← String.length_toList, List.drop_left] at h
  rw [Option.some.inj h]

theorem word?_cons_of_ne {word : String} {c d : Char} {more : List Char}
    (front : word.toList = d :: more) (h : c ≠ d) (text : List Char) :
    word? word (c :: text) = none := by
  cases read : word? word (c :: text) with
  | none => rfl
  | some rest =>
    have whole := eq_append_of_word? read
    rw [front] at whole
    exact absurd (List.cons.inj whole).1 h

theorem blanks?_cons {c : Char} (h : isBlank c = true) (stops : Stops isBlank rest) :
    blanks? (c :: rest) = some rest := by
  rw [blanks?, if_pos h, stops.dropWhile]

@[simp]
theorem blanks?_space (stops : Stops isBlank rest) : blanks? (' ' :: rest) = some rest :=
  blanks?_cons (by decide) stops

theorem blanks?_of_stops (h : Stops isBlank text) : blanks? text = none := by
  cases text with
  | nil => rfl
  | cons c text => rw [blanks?, if_neg (by simp [h c rfl])]

theorem blanks?_of_forall (h : ∀ c ∈ text, isBlank c = true) (read : blanks? text = some rest) :
    rest = [] := by
  cases text with
  | nil => cases read
  | cons c text =>
    obtain ⟨here, later⟩ := List.forall_mem_cons.1 h
    rw [blanks?, if_pos here] at read
    rw [← Option.some.inj read, List.dropWhile_eq_nil_iff]
    exact later

@[simp]
theorem skipBlanks_of_stops (h : Stops isBlank text) : skipBlanks text = text := h.dropWhile

@[simp]
theorem skipBlanks_space (stops : Stops isBlank rest) : skipBlanks (' ' :: rest) = rest := by
  rw [skipBlanks, List.dropWhile_cons_of_pos (by decide), stops.dropWhile]

/-- A space is all there is to a gap in front of another character. -/
theorem gap_space (stops : Stops isBlank rest) :
    (' ' :: rest).takeWhile isBlank = [' '] ∧ (' ' :: rest).dropWhile isBlank = rest :=
  ⟨takeWhile_run blank_space stops, dropWhile_run blank_space stops⟩

/-! ## Runs, quotes and braces -/

theorem run?_append {p : Char → Bool} {run : List Char} (filled : run ≠ [])
    (inside : ∀ c ∈ run, p c = true) (stops : Stops p rest) :
    run? p (run ++ rest) = some (run, rest) := by
  obtain ⟨c, run, rfl⟩ := List.exists_cons_of_ne_nil filled
  rw [run?, takeWhile_run inside stops, dropWhile_run inside stops]

theorem run?_of_stops {p : Char → Bool} (h : Stops p text) : run? p text = none := by
  rw [run?, h.takeWhile]

/-- A token up to a blank. -/
theorem run?_token (h : IsToken text) (stops : Stops (!isBlank ·) rest) :
    run? (!isBlank ·) (text ++ rest) = some (text, rest) :=
  run?_append h.ne_nil (fun c hc => by rw [h.free c hc, Bool.not_false]) stops

theorem quoted?_append {mark : Char} {name : List Char} (isMark : isQuotable mark = false)
    (filled : name ≠ []) (inside : ∀ c ∈ name, isQuotable c = true) (rest : List Char) :
    quoted? (mark :: (name ++ mark :: rest)) = some (name, rest) := by
  have reads (text : List Char) : quote? (mark :: text) = some text := by
    have code : mark.toNat = 34 ∨ mark.toNat = 39 := by
      simp only [isQuotable, Bool.and_eq_false_iff, bne_eq_false_iff_eq] at isMark
      exact isMark
    simp [quote?, code]
  unfold quoted?
  simp [reads, run?_append filled inside (stops_cons isMark rest)]

theorem braced?_append {names : List Char} (filled : names ≠ []) (free : Char.ofNat 125 ∉ names)
    (rest : List Char) :
    braced? ("\x7b".toList ++ (names ++ ("\x7d".toList ++ rest))) = some (names, rest) := by
  have inside : ∀ c ∈ names, decide (c ≠ Char.ofNat 125) = true := by
    intro c hc
    apply decide_eq_true
    rintro rfl
    exact free hc
  have stops : Stops (fun c => decide (c ≠ Char.ofNat 125)) ("\x7d".toList ++ rest) :=
    stops_cons (by decide) rest
  unfold braced?
  simp only [word?_append, run?_append filled inside stops, Option.bind_eq_bind, Option.bind_some,
    Option.pure_def]

theorem braced?_of_ne {c : Char} (h : c ≠ Char.ofNat 123) (text : List Char) :
    braced? (c :: text) = none := by
  have front : "\x7b".toList = Char.ofNat 123 :: [] := by decide
  unfold braced?
  rw [word?_cons_of_ne front h]
  rfl

end CodeGraph.Import
