import CodeGraph.Proofs.Import.Printing
import CodeGraph.Proofs.Import.Search

/-!
# Printed statements with dotted modules

The forms of Python and of Java read their own lines (`fromImport_names`, `plainImport_module`,
`javaImport_path`).  A module that ends with `from` could open a statement that goes on in the next
line; it does not, since `import` is no module (`fromImport_behind`).  So each form reads a printed
text line by line (`lineByLine_fromImport`, `lineByLine_plainImport`, `lineByLine_javaImport`).
-/

namespace CodeGraph.Import

open CodeGraph.Text

variable {rest : List Char} {segments : List (List Char)}

/-! ## Python -/

theorem nameList?_append {names : List Char} (filled : names ≠ []) (first : Stops isBlank names)
    (inside : ∀ c ∈ names, isNameListChar c = true) (stops : Stops isNameListChar rest) :
    nameList? (' ' :: (names ++ rest)) = some (names, rest) := by
  obtain ⟨gap, after⟩ := gap_space (first.append filled rest)
  rw [nameList?, gap, after]
  simp only [run?_append filled inside stops]

theorem nameList?_of_stops {text : List Char} (h : Stops isBlank text) : nameList? text = none := by
  rw [nameList?, h.takeWhile]

/-- A list of items up to the end of a line. -/
theorem nameList?_items {items : List Item} (filled : items ≠ [])
    (fits : ∀ item ∈ items, item.Fits) (stops : Stops isNameListChar rest) :
    ∃ names, nameList? (commaList (items.map Item.text) ++ rest) = some (names, rest) ∧
      itemNames true names = items.map fun item => String.ofList item.name := by
  have texts : ∀ text ∈ items.map Item.text, IsTrimmed text :=
    List.forall_mem_map.2 fun item mem => (fits item mem).isTrimmed
  have some : items.map Item.text ≠ [] := by simpa using filled
  obtain ⟨names, whole, called, first⟩ := exists_commaList some texts
  have inside : ∀ c ∈ names, isNameListChar c = true := by
    intro c hc
    have ok : isListed c = true := listed_items fits c (by rw [whole]; exact .tail _ hc)
    rw [isNameListChar, Bool.and_eq_true, decide_eq_true_eq, decide_eq_true_eq]
    exact ⟨ne_of_isListed ok (by decide), ne_of_isListed ok (by decide)⟩
  have none : ∀ c ∈ ([] : List Char), isBlank c = true := fun c hc => by cases hc
  have read := itemNames_items filled fits none
  rw [List.append_nil, whole, itemNames_cons_blank true (by decide)] at read
  rw [whole]
  exact ⟨names, nameList?_append called first inside stops, read⟩

theorem opens_fromImport : Opens ["from"] fromImport := by
  apply opens_of_word
  intro start text none
  unfold fromImport
  simp only [Option.bind_eq_bind]
  rw [← Option.bind_assoc, none, Option.bind_none]

theorem fromImport_names {dots : Nat} {items : List Item}
    (fits : (Form.names dots segments items).Fits .python) (stops : Stops isNameListChar rest)
    (start : Bool) :
    fromImport start ((Form.names dots segments items).text ++ rest) =
      some ((Form.names dots segments items).clause, rest) := by
  obtain ⟨-, filled, segment, chosen, item⟩ := fits
  have identifier : ∀ s ∈ segments, IsIdentifier s := fun s mem => (segment s mem).1
  have module := isToken_relative filled identifier
  obtain ⟨names, read, called⟩ := nameList?_items chosen item stops
  have first : Stops isBlank (relative dots segments ++
      ' ' :: ("import".toList ++ (commaList (items.map Item.text) ++ rest))) :=
    module.stops _
  have second : Stops isBlank ("import".toList ++ (commaList (items.map Item.text) ++ rest)) :=
    stops_cons (by decide) _
  have third : Stops (!isBlank ·)
      (' ' :: ("import".toList ++ (commaList (items.map Item.text) ++ rest))) :=
    stops_cons (by decide) _
  unfold fromImport Form.text Form.clause wordThen
  simp only [List.append_assoc, List.cons_append, word?_append, Option.bind_eq_bind,
    Option.bind_some, blanks?_space first, run?_token module third,
    blanks?_space second, read, called, Option.pure_def]

/-- A line of Python is a word and a module that is not the word `import`. -/
theorem exists_words {form : Form} (fits : form.Fits .python) (stops : Stops (!isBlank ·) rest) :
    ∃ word ∈ ["from", "import"], ∃ module tail,
      form.text ++ rest = word.toList ++ ' ' :: (module ++ tail) ∧ IsToken module ∧
        module ≠ "import".toList ∧ Stops (!isBlank ·) tail := by
  obtain ⟨dots, segments, items, rfl⟩ | ⟨segments, rfl⟩ := fits.python
  · obtain ⟨-, filled, segment, -⟩ := fits
    have identifier : ∀ s ∈ segments, IsIdentifier s := fun s mem => (segment s mem).1
    refine ⟨"from", by decide, relative dots segments,
      ' ' :: ("import".toList ++ (commaList (items.map Item.text) ++ rest)), ?_,
      isToken_relative filled identifier, relative_ne_import segment, stops_cons (by decide) _⟩
    simp only [Form.text, wordThen, List.append_assoc, List.cons_append]
  · obtain ⟨-, filled, segment⟩ := fits
    have identifier : ∀ s ∈ segments, IsIdentifier s := fun s mem => (segment s mem).1
    refine ⟨"import", by decide, relative 0 segments, rest, ?_,
      isToken_dotted filled identifier, relative_ne_import segment, stops⟩
    simp only [Form.text, wordThen, List.append_assoc, List.cons_append]
    rfl

/-- A module is not read as the word `import` with names behind it. -/
theorem nameList?_module {module : List Char} (token : IsToken module)
    (other : module ≠ "import".toList) (stops : Stops (!isBlank ·) rest) :
    (word? "import" (module ++ rest)).bind nameList? = none := by
  cases front : word? "import" (module ++ rest) with
  | none => rfl
  | some after =>
    have apart : Stops (· ∈ "import".toList) rest := by
      intro c hc
      have blank := stops c hc
      rw [Bool.not_eq_false'] at blank
      refine decide_eq_false fun mem => ?_
      have word : IsIdentifier "import".toList := by decide
      rw [word.isToken.free c mem] at blank
      cases blank
    obtain ⟨more, split, rfl⟩ := eq_append_of_word?_append apart front
    cases more with
    | nil => exact absurd (by rw [split, List.append_nil]) other
    | cons c more =>
      have noBlank : isBlank c = false := token.free c (by rw [split]; simp)
      exact nameList?_of_stops (stops_cons noBlank _)

/-- At the end of a line `from` does not open a statement with the next lines. -/
theorem fromImport_behind {lines : List Form} (fits : ∀ form ∈ lines, form.Fits .python)
    (feeds : Nat) (start : Bool) :
    fromImport start ("from".toList ++ behind Form.text lines feeds) = none := by
  unfold fromImport
  simp only [word?_append, Option.bind_eq_bind, Option.bind_some]
  cases lines with
  | nil =>
    have blank : ∀ c ∈ behind Form.text [] feeds, isBlank c = true := by
      intro c hc
      rw [List.eq_of_mem_replicate hc]
      decide
    cases read : blanks? (behind Form.text [] feeds) with
    | none => rfl
    | some rest =>
      rw [blanks?_of_forall blank read]
      rfl
  | cons form lines =>
    have stops : Stops (!isBlank ·) (behind Form.text lines feeds) := stops_behind (by decide) _ _
    obtain ⟨word, mem, module, tail, whole, token, other, ended⟩ :=
      exists_words (fits form List.mem_cons_self) stops
    have letters : ∀ word ∈ ["from", "import"], IsIdentifier word.toList := by decide
    have opened := (letters word mem).isToken
    have feed : isBlank '\n' = true := by decide
    have gap : Stops (!isBlank ·) (' ' :: (module ++ tail)) := stops_cons (by decide) _
    -- the word of the next line is read as the module, so its module would have to be `import`
    rw [behind_cons, whole, blanks?_cons feed (opened.stops _)]
    simp only [Option.bind_some, run?_token opened gap, blanks?_space (token.stops tail)]
    have none := nameList?_module token other ended
    cases front : word? "import" (module ++ tail) with
    | none => rfl
    | some after =>
      rw [front, Option.bind_some] at none
      simp only [Option.bind_some, none, Option.bind_none]

/-- The line of an import of a module opens no `from` statement. -/
theorem quiet_module (fits : (Form.module segments).Fits .python) {lines : List Form}
    (later : ∀ form ∈ lines, form.Fits .python) (feeds : Nat) :
    Quiet fromImport (behind Form.text lines feeds) (Form.module segments).text := by
  have identifier : ∀ s ∈ segments, IsIdentifier s := fun s mem => (fits.2.2 s mem).1
  have module := isToken_dotted fits.2.1 identifier
  show Quiet _ _ ("import ".toList ++ dotted segments)
  apply quiet_append
  · exact opens_fromImport.quiet _ (by decide)
  · refine opens_fromImport.quiet_token module.free (fun word mem => ?_) fun _ word mem _ => ?_
    · obtain rfl := List.mem_singleton.1 mem
      exact stops_behind (by decide) lines feeds
    · obtain rfl := List.mem_singleton.1 mem
      exact fromImport_behind later feeds false

/-- A search for `from` statements finds those of the lines. -/
theorem lineByLine_fromImport :
    LineByLine fromImport Form.text (fun form => if form.isLeading then some form.clause else none)
      (Form.Fits .python) where
  feed start more := opens_fromImport.none_of_ne (by decide) more
  line form lines feeds n fits later := by
    have stops : Stops isNameListChar (behind Form.text lines feeds) := stops_behind (by decide) _ _
    obtain ⟨dots, segments, items, rfl⟩ | ⟨segments, rfl⟩ := fits.python
    · exact findFrom_of_read (Form.text_ne_nil _) fits.noFeed (fromImport_names fits stops true)
    · have quiet := quiet_module fits later feeds
      exact findFrom_of_quiet_line (Form.text_ne_nil _) (opens_fromImport.none_of_ne (by decide) _)
        quiet fits.noFeed

theorem plainImport_module (fits : (Form.module segments).Fits .python)
    (stops : Stops (!isBlank ·) rest) :
    plainImport true ((Form.module segments).text ++ rest) =
      some ((Form.module segments).clause, rest) := by
  obtain ⟨-, filled, segment⟩ := fits
  have identifier : ∀ s ∈ segments, IsIdentifier s := fun s mem => (segment s mem).1
  have module := isToken_dotted filled identifier
  unfold plainImport Form.text Form.clause wordThen
  simp only [if_true, List.append_assoc, List.cons_append, word?_append, Option.bind_eq_bind,
    Option.bind_some, blanks?_space (module.stops rest), run?_token module stops, Option.pure_def,
    lastSegment_dotted filled identifier]

theorem plainImport_of_ne {c : Char} (h : c ≠ 'i') (start : Bool) (text : List Char) :
    plainImport start (c :: text) = none := by
  have front : "import".toList = 'i' :: "mport".toList := by decide
  unfold plainImport
  rw [word?_cons_of_ne front h]
  cases start <;> rfl

theorem quiet_plainImport (rest part : List Char) : Quiet plainImport rest part := by
  induction part with
  | nil => trivial
  | cons c part ih => exact ⟨rfl, ih⟩

/-- A search for `import` statements at the starts of lines finds those of the lines. -/
theorem lineByLine_plainImport :
    LineByLine plainImport Form.text
      (fun form => if !form.isLeading then some form.clause else none)
      (Form.Fits .python) where
  feed start more := plainImport_of_ne (by decide) start more
  line form lines feeds n fits later := by
    have stops : Stops (!isBlank ·) (behind Form.text lines feeds) := stops_behind (by decide) _ _
    obtain ⟨dots, segments, items, rfl⟩ | ⟨segments, rfl⟩ := fits.python
    · exact findFrom_of_quiet_line (Form.text_ne_nil _) (plainImport_of_ne (by decide) true _)
        (quiet_plainImport _ _) fits.noFeed
    · exact findFrom_of_read (Form.text_ne_nil _) fits.noFeed (plainImport_module fits stops)

/-! ## Java -/

theorem upToSemicolon?_append {path : List Char} (token : IsToken path) (noEnd : ';' ∉ path)
    (rest : List Char) :
    upToSemicolon? (' ' :: (path ++ ';' :: rest)) = some (path, rest) := by
  obtain ⟨gap, after⟩ := gap_space (token.stops (';' :: rest))
  have inside : ∀ c ∈ path, decide (c ≠ ';') = true := by
    intro c hc
    apply decide_eq_true
    rintro rfl
    exact noEnd hc
  have stops : Stops (fun c => decide (c ≠ ';')) (';' :: rest) := stops_cons (by decide) rest
  have semicolon : word? ";" (';' :: rest) = some rest := word?_append ";" rest
  rw [upToSemicolon?, gap, after]
  simp only [run?_append token.ne_nil inside stops, semicolon, Option.map_some]

theorem upToSemicolon?_of_stops {text : List Char} (h : Stops isBlank text) :
    upToSemicolon? text = none := by
  rw [upToSemicolon?, h.takeWhile]

/-- A path whose first segment begins with `static` is no static import. -/
theorem static_path {path : List Char} (token : IsToken path) (rest : List Char) :
    (word? "static" (path ++ ';' :: rest)).bind upToSemicolon? = none := by
  cases front : word? "static" (path ++ ';' :: rest) with
  | none => rfl
  | some after =>
    -- behind `static` the segment goes on, or a dot or the end follows, but no blank
    have apart : Stops (· ∈ "static".toList) (';' :: rest) := stops_cons (by decide) rest
    obtain ⟨more, split, rfl⟩ := eq_append_of_word?_append apart front
    have inside : ∀ c ∈ more, isBlank c = false := fun c hc =>
      token.free c (by rw [split]; simp [hc])
    have first : Stops isBlank (more ++ ';' :: rest) := by
      cases more with
      | nil => exact stops_cons (by decide) rest
      | cons c more => exact stops_cons (inside c List.mem_cons_self) _
    exact upToSemicolon?_of_stops first

theorem javaImport_path {isStatic : Bool} (fits : (Form.path isStatic segments).Fits .java)
    (start : Bool) (rest : List Char) :
    javaImport start ((Form.path isStatic segments).text ++ rest) =
      some ((Form.path isStatic segments).clause, rest) := by
  obtain ⟨-, filled, identifier⟩ := fits
  have module := isToken_dotted filled identifier
  have other (c : Char) (word : isWord c = true) : c ≠ ';' := ne_of_isWord word (by decide)
  have noEnd : ';' ∉ dotted segments := fun mem =>
    forall_mem_relative (by decide) other identifier 0 _ mem rfl
  have read := upToSemicolon?_append module noEnd rest
  have trimmed := module.isTrimmed.trim_eq_self
  have segment := lastSegment_dotted filled identifier
  unfold javaImport Form.text Form.clause wordThen
  cases isStatic with
  | true =>
    have first : Stops isBlank ("static".toList ++ ' ' :: (dotted segments ++ ';' :: rest)) :=
      stops_cons (by decide) _
    have spaced : "static ".toList ++ (dotted segments ++ ';' :: rest) =
        "static".toList ++ ' ' :: (dotted segments ++ ';' :: rest) := rfl
    simp only [if_true, List.append_assoc, List.cons_append, List.nil_append, word?_append,
      Option.bind_eq_bind, Option.bind_some, spaced, blanks?_space first, read, Option.some_or,
      Option.pure_def, trimmed, segment]
  | false =>
    simp only [Bool.false_eq_true, if_false, List.append_assoc, List.cons_append, List.nil_append,
      word?_append, Option.bind_eq_bind, Option.bind_some, blanks?_space (module.stops _),
      static_path module rest, Option.none_or, read, Option.pure_def, trimmed, segment]

/-- A search for the imports of Java finds those of the lines. -/
theorem lineByLine_javaImport :
    LineByLine javaImport Form.text (fun form => if form.isLeading then some form.clause else none)
      (Form.Fits .java) where
  feed start more := by
    have front : "import".toList = 'i' :: "mport".toList := by decide
    unfold javaImport
    rw [word?_cons_of_ne front (by decide)]
    rfl
  line form lines feeds n fits later := by
    obtain ⟨isStatic, segments, rfl⟩ := fits.java
    exact findFrom_of_read (Form.text_ne_nil _) fits.noFeed (javaImport_path fits true _)

end CodeGraph.Import
