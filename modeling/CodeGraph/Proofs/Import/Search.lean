import CodeGraph.Proofs.Import.Names
import CodeGraph.Proofs.Import.Reading

/-!
# Searching a printed text

A search takes a phrase where one is read (`findFrom_of_read`) and passes over a part of the text
inside which none starts (`Quiet`, `findFrom_of_quiet`).  Every form of import statement opens with
a word and a blank behind it (`Opens`), so a literal without the first letters of these words is
quiet, and a part without blanks is quiet unless it ends with one of the words
(`Opens.quiet_token`).  If every line of a text gives at most one phrase, whatever lines follow,
then the search gives the phrases of the lines, each with the number of its line (`findFrom_lines`).
-/

namespace CodeGraph.Import

open CodeGraph.Text

variable {α : Type} {phrase : Phrase α} {start : Bool} {line : Nat} {part rest : List Char}

/-! ## Steps -/

theorem findFrom_cons_of_none {c : Char} {text : List Char} (h : phrase start (c :: text) = none) :
    findFrom phrase start line (c :: text) =
      findFrom phrase (c = '\n') (if c = '\n' then line + 1 else line) text := by
  rw [findFrom, h]

theorem findFrom_of_read {found : α} (filled : part ≠ []) (feed : '\n' ∉ part)
    (read : phrase start (part ++ rest) = some (found, rest)) :
    findFrom phrase start line (part ++ rest) =
      (found, line) :: findFrom phrase false line rest := by
  obtain ⟨c, more, rfl⟩ := List.exists_cons_of_ne_nil filled
  have shorter : rest.length < (c :: (more ++ rest)).length := by
    rw [List.length_cons, List.length_append]
    omega
  have taken : (c :: (more ++ rest)).take ((c :: (more ++ rest)).length - rest.length) =
      c :: more := by
    rw [← List.cons_append, List.length_append, Nat.add_sub_cancel, List.take_left]
  have noFeed : ((c :: more).getLast? = some '\n') = False :=
    eq_false fun last => feed (List.mem_of_getLast? last)
  rw [List.cons_append] at read ⊢
  rw [findFrom, read]
  simp only [dif_pos shorter, taken, noFeed, decide_false, List.count_eq_zero_of_not_mem feed,
    Nat.add_zero]

/-! ## Quiet parts -/

/-- Inside of a part no phrase starts when `rest` follows. -/
def Quiet (phrase : Phrase α) (rest : List Char) : List Char → Prop
  | [] => True
  | c :: part => phrase false (c :: (part ++ rest)) = none ∧ Quiet phrase rest part

theorem quiet_append {more : List Char} (here : Quiet phrase (more ++ rest) part)
    (there : Quiet phrase rest more) : Quiet phrase rest (part ++ more) := by
  induction part with
  | nil => exact there
  | cons c part ih =>
    refine ⟨?_, ih here.2⟩
    show phrase false (c :: (part ++ more ++ rest)) = none
    rw [List.append_assoc]
    exact here.1

theorem findFrom_of_quiet (quiet : Quiet phrase rest part) (feed : '\n' ∉ part) :
    findFrom phrase false line (part ++ rest) = findFrom phrase false line rest := by
  induction part with
  | nil => rfl
  | cons c part ih =>
    rw [List.mem_cons, not_or] at feed
    have noFeed : (c = '\n') = False := eq_false fun h => feed.1 h.symm
    rw [List.cons_append, findFrom_cons_of_none quiet.1]
    simp only [noFeed, decide_false, if_false]
    exact ih quiet.2 feed.2

theorem Quiet.none (quiet : Quiet phrase rest part) (filled : part ≠ []) :
    phrase false (part ++ rest) = none := by
  obtain ⟨c, part, rfl⟩ := List.exists_cons_of_ne_nil filled
  exact quiet.1

/-- A line that is read up to a quiet ending. -/
theorem findFrom_of_read_line {found : α} {ending : List Char} (filled : part ≠ [])
    (feed : '\n' ∉ part ++ ending)
    (read : phrase true (part ++ (ending ++ rest)) = some (found, ending ++ rest))
    (quiet : Quiet phrase rest ending) :
    findFrom phrase true line (part ++ ending ++ rest) =
      (found, line) :: findFrom phrase false line rest := by
  rw [List.mem_append, not_or] at feed
  rw [List.append_assoc, findFrom_of_read filled feed.1 read, findFrom_of_quiet quiet feed.2]

/-- A quiet line, when the phrase does not start with the line either. -/
theorem findFrom_of_quiet_line (filled : part ≠ []) (first : phrase true (part ++ rest) = none)
    (quiet : Quiet phrase rest part) (feed : '\n' ∉ part) :
    findFrom phrase true line (part ++ rest) = findFrom phrase false line rest := by
  obtain ⟨c, part, rfl⟩ := List.exists_cons_of_ne_nil filled
  have same : findFrom phrase true line (c :: (part ++ rest)) =
      findFrom phrase false line (c :: (part ++ rest)) := by
    rw [List.cons_append] at first
    rw [findFrom_cons_of_none first, findFrom_cons_of_none quiet.1]
  rw [List.cons_append, same, ← List.cons_append]
  exact findFrom_of_quiet quiet feed

/-! ## Phrases that open with a word -/

/-- Where the phrase is read, one of the words stands with a blank behind it. -/
def Opens (words : List String) (phrase : Phrase α) : Prop :=
  ∀ start text, phrase start text ≠ none →
    ∃ word ∈ words, ∃ rest, word? word text = some rest ∧ blanks? rest ≠ none

/-- None of the words begins with the character, and none is empty. -/
def isInitialOfNone (words : List String) (c : Char) : Bool :=
  words.all fun word => word.toList.head?.any (· != c)

variable {words : List String}

/-- A form that reads its word and then blanks. -/
theorem opens_of_word {word : String}
    (h : ∀ start text, (word? word text).bind blanks? = none → phrase start text = none) :
    Opens [word] phrase := by
  intro start text read
  have opened : (word? word text).bind blanks? ≠ none := fun none => read (h start text none)
  obtain ⟨after, opened⟩ := Option.ne_none_iff_exists'.1 opened
  obtain ⟨rest, front, blank⟩ := Option.bind_eq_some_iff.1 opened
  exact ⟨word, List.mem_singleton_self _, rest, front, by simp [blank]⟩

theorem Opens.none_of_ne (opens : Opens words phrase) {c : Char}
    (h : isInitialOfNone words c = true) (text : List Char) : phrase start (c :: text) = none := by
  by_contra read
  obtain ⟨word, mem, rest, front, -⟩ := opens _ _ read
  have other := List.all_eq_true.1 h word mem
  have whole := eq_append_of_word? front
  cases letters : word.toList with
  | nil => simp [letters] at other
  | cons d more =>
    rw [letters] at other whole
    obtain rfl := (List.cons.inj whole).1
    simp at other

/-- A part without the first letters of the words. -/
theorem Opens.quiet (opens : Opens words phrase) (rest : List Char)
    (h : part.all (isInitialOfNone words) = true) : Quiet phrase rest part := by
  induction part with
  | nil => trivial
  | cons c part ih =>
    rw [List.all_cons, Bool.and_eq_true] at h
    obtain ⟨here, later⟩ := h
    exact ⟨opens.none_of_ne here _, ih later⟩

/-- A word at the front of a part lies inside it, if what follows does not go on with the word. -/
theorem eq_append_of_word?_append {word : String} {after : List Char}
    (apart : Stops (· ∈ word.toList) rest) (h : word? word (part ++ rest) = some after) :
    ∃ more, part = word.toList ++ more ∧ after = more ++ rest := by
  rcases List.append_eq_append_iff.1 (eq_append_of_word? h) with
    ⟨behind, longer, tail⟩ | ⟨more, same, tail⟩
  · cases behind with
    | nil =>
      rw [List.append_nil] at longer
      exact ⟨[], by rw [longer, List.append_nil], tail.symm⟩
    | cons c behind =>
      rw [tail] at apart
      have outside := of_decide_eq_false (apart c rfl)
      exact absurd (longer ▸ by simp) outside
  · exact ⟨more, same, tail⟩

/-- A part without blanks is quiet, unless it ends with one of the words, a blank follows and the
phrase is read from that word on. -/
theorem Opens.quiet_token (opens : Opens words phrase) (free : ∀ c ∈ part, isBlank c = false)
    (apart : ∀ word ∈ words, Stops (· ∈ word.toList) rest)
    (ends : blanks? rest ≠ none → ∀ word ∈ words, word.toList <:+ part →
      phrase false (word.toList ++ rest) = none) : Quiet phrase rest part := by
  induction part with
  | nil => trivial
  | cons c part ih =>
    have later : ∀ d ∈ part, isBlank d = false := fun d hd => free d (List.mem_cons_of_mem c hd)
    refine ⟨?_, ih later fun blank word mem h =>
      ends blank word mem (h.trans (List.suffix_cons _ _))⟩
    by_contra read
    obtain ⟨word, mem, after, front, blank⟩ := opens _ _ read
    rw [← List.cons_append] at front read
    obtain ⟨more, split, rfl⟩ := eq_append_of_word?_append (apart word mem) front
    -- the blank behind the word is not in the part, so the word ends the part
    cases more with
    | nil =>
      rw [List.append_nil] at split
      rw [split] at read
      exact read (ends blank word mem (split ▸ List.suffix_refl _))
    | cons d more =>
      have noBlank : isBlank d = false := free d (split ▸ by simp)
      exact blank (blanks?_of_stops (stops_cons noBlank _))

/-- A name is quiet in front of a character, unless it is a blank and the phrase is read from one of
the words and this blank on. -/
theorem Opens.quiet_identifier (opens : Opens words phrase) {name : List Char}
    (fits : IsIdentifier name) {c : Char} (apart : ∀ word ∈ words, c ∉ word.toList)
    (ends : isBlank c = true → ∀ word ∈ words, phrase false (word.toList ++ c :: rest) = none) :
    Quiet phrase (c :: rest) name := by
  refine opens.quiet_token fits.isToken.free (fun word mem => ?_) fun blank word mem _ => ?_
  · exact stops_cons (decide_eq_false (apart word mem)) rest
  · by_cases h : isBlank c = true
    · exact ends h word mem
    · exact absurd (blanks?_of_stops (stops_cons (by simpa using h) rest)) blank

/-- A part without blanks is quiet if it ends with other characters than word characters. -/
theorem Opens.quiet_closed (opens : Opens words phrase)
    (letters : ∀ word ∈ words, IsIdentifier word.toList) {front back : List Char}
    (free : ∀ c ∈ front ++ back, isBlank c = false) (filled : back ≠ [])
    (closed : ∀ c ∈ back, isWord c = false) (apart : ∀ word ∈ words, Stops (· ∈ word.toList) rest) :
    Quiet phrase rest (front ++ back) := by
  refine opens.quiet_token free apart fun _ word mem ends => ?_
  obtain ⟨before, whole⟩ := ends
  have last := congrArg List.getLast? whole
  rw [List.getLast?_append_of_ne_nil _ (letters word mem).ne_nil,
    List.getLast?_append_of_ne_nil _ filled, List.getLast?_eq_getLast_of_ne_nil filled] at last
  have same := closed _ (List.getLast_mem filled)
  exact absurd (List.mem_of_getLast? last) ((letters word mem).notMem same)

/-! ## Lines -/

/-- Lines behind a line, and line feeds at the end. -/
def behind {L : Type} (text : L → List Char) (lines : List L) (feeds : Nat) : List Char :=
  lines.flatMap (fun l => '\n' :: text l) ++ List.replicate feeds '\n'

variable {L : Type} {text : L → List Char}

@[simp]
theorem behind_cons (l : L) (lines : List L) (feeds : Nat) :
    behind text (l :: lines) feeds = '\n' :: (text l ++ behind text lines feeds) := by
  simp [behind]

theorem joinWith_append_replicate (l : L) (lines : List L) (feeds : Nat) :
    joinWith '\n' ((l :: lines).map text) ++ List.replicate feeds '\n' =
      text l ++ behind text lines feeds := by
  induction lines generalizing l with
  | nil => simp [behind, joinWith]
  | cons next lines ih =>
    have more : (next :: lines).map text ≠ [] := by simp
    rw [List.map_cons, joinWith_cons more, behind_cons, ← ih next]
    simp

/-- Behind a line the text ends or goes on with a line feed. -/
theorem behind_eq (lines : List L) (feeds : Nat) :
    behind text lines feeds = [] ∨ ∃ more, behind text lines feeds = '\n' :: more := by
  cases lines with
  | cons l lines => exact .inr ⟨_, behind_cons l lines feeds⟩
  | nil =>
    cases feeds with
    | zero => exact .inl rfl
    | succ feeds => exact .inr ⟨List.replicate feeds '\n', by simp [behind, List.replicate_succ]⟩

theorem stops_behind {p : Char → Bool} (h : p '\n' = false) (lines : List L) (feeds : Nat) :
    Stops p (behind text lines feeds) := by
  rcases @behind_eq L text lines feeds with ended | ⟨more, on⟩
  · rw [ended]
    exact stops_nil
  · rw [on]
    exact stops_cons h more

/-- What one line gives to a search: no phrase starts with a line feed, and from the start of a line
the search gives what the line gives and goes on behind it, whatever lines follow. -/
structure LineByLine (phrase : Phrase α) (text : L → List Char) (gives : L → Option α)
    (Fits : L → Prop) : Prop where
  feed : ∀ start more, phrase start ('\n' :: more) = none
  line : ∀ l lines feeds n, Fits l → (∀ l ∈ lines, Fits l) →
    findFrom phrase true n (text l ++ behind text lines feeds) =
      ((gives l).map (·, n)).toList ++ findFrom phrase false n (behind text lines feeds)

theorem findFrom_replicate (feed : ∀ start more, phrase start ('\n' :: more) = none)
    (start : Bool) (n feeds : Nat) : findFrom phrase start n (List.replicate feeds '\n') = [] := by
  induction feeds generalizing start n with
  | zero => simp [findFrom]
  | succ feeds ih => rw [List.replicate_succ, findFrom_cons_of_none (feed _ _), ih]

/-- A search gives what the lines say, in their order and with their numbers. -/
theorem findFrom_lines {gives : L → Option α} {Fits : L → Prop}
    (each : LineByLine phrase text gives Fits) {lines : List L} (fits : ∀ l ∈ lines, Fits l)
    (n feeds : Nat) :
    findFrom phrase true n (joinWith '\n' (lines.map text) ++ List.replicate feeds '\n') =
      (lines.zipIdx n).filterMap fun (l, i) => (gives l).map (·, i) := by
  cases lines with
  | nil => exact findFrom_replicate each.feed true n feeds
  | cons l lines =>
    rw [joinWith_append_replicate]
    -- behind each line the search stands in front of a line feed, and behind that at a new line
    induction lines generalizing l n with
    | nil =>
      have later : ∀ l ∈ ([] : List L), Fits l := fun _ h => by cases h
      rw [each.line l [] feeds n (fits l List.mem_cons_self) later]
      have ended : findFrom phrase false n (behind text [] feeds) = [] :=
        findFrom_replicate each.feed false n feeds
      rw [ended]
      cases h : gives l <;> simp [h]
    | cons next lines ih =>
      obtain ⟨here, later⟩ := List.forall_mem_cons.1 fits
      rw [each.line l _ feeds n here later, behind_cons, findFrom_cons_of_none (each.feed _ _)]
      simp only [decide_true, if_true]
      rw [ih (n + 1) next later, List.zipIdx_cons]
      cases h : gives l <;> simp [h]

end CodeGraph.Import
