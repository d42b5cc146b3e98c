import CodeGraph.Proofs.Import.Printing
import CodeGraph.Proofs.Import.Search

/-!
# Printed statements of scripts

The two forms of JavaScript and TypeScript read their own lines (`moduleImport_binding`,
`requireCall_require`).  A name may end with a word that opens the other form; what stands behind a
name of a line never completes it (`quiet_require`, `quiet_binding`).  So each form reads a printed
text line by line (`lineByLine_moduleImport`, `lineByLine_requireCall`).
-/

namespace CodeGraph.Import

open CodeGraph.Text

variable {rest : List Char} {start : Bool}

/-! ## Lists in braces -/

theorem braced?_inBraces {texts : List (List Char)} (h : ∀ c ∈ commaList texts, isListed c = true)
    (rest : List Char) :
    braced? (inBraces texts ++ rest) = some (commaList texts ++ [' '], rest) := by
  have closing : Char.ofNat 125 ∉ commaList texts ++ [' '] := by
    rw [List.mem_append, not_or]
    exact ⟨fun mem => ne_of_isListed (h _ mem) (by decide) rfl, by decide⟩
  have read := braced?_append (by simp) closing rest
  rw [← read, inBraces]
  simp only [List.append_assoc, List.cons_append, List.nil_append]

theorem itemNames_inBraces {items : List Item} (filled : items ≠ [])
    (fits : ∀ item ∈ items, item.Fits) :
    itemNames true (commaList (items.map Item.text) ++ [' ']) =
      (items.map Item.name).map String.ofList := by
  rw [itemNames_items filled fits blank_space, List.map_map]
  rfl

/-- A list in braces is quiet if its texts are, in front of a comma and at the end of the list. -/
theorem Opens.quiet_inBraces {α : Type} {phrase : Phrase α} {words : List String}
    (opens : Opens words phrase) {texts : List (List Char)}
    (marks : "\x7b, \x7d".toList.all (isInitialOfNone words) = true)
    (inner : ∀ text ∈ texts, ∀ more, Quiet phrase (',' :: more) text)
    (last : ∀ text ∈ texts, ∀ more, Quiet phrase (' ' :: Char.ofNat 125 :: more) text)
    (rest : List Char) : Quiet phrase rest (inBraces texts) := by
  have mark {c : Char} (mem : c ∈ "\x7b, \x7d".toList) (more : List Char) :
      phrase false (c :: more) = none := opens.none_of_ne (List.all_eq_true.1 marks c mem) more
  have list : Quiet phrase (' ' :: Char.ofNat 125 :: rest) (commaList texts) := by
    induction texts with
    | nil => trivial
    | cons text texts ih =>
      obtain ⟨inner, inners⟩ := List.forall_mem_cons.1 inner
      obtain ⟨here, later⟩ := List.forall_mem_cons.1 last
      by_cases ended : texts = []
      · subst ended
        exact ⟨mark (by decide) _, here rest⟩
      · rw [commaList_cons ended]
        refine ⟨mark (by decide) _, quiet_append (inner _) ?_⟩
        exact ⟨mark (by decide) _, ih inners later⟩
  show Quiet phrase rest (Char.ofNat 123 :: (commaList texts ++ ' ' :: [Char.ofNat 125]))
  refine ⟨mark (by decide) _, quiet_append list ?_⟩
  exact ⟨mark (by decide) _, mark (by decide) _, trivial⟩

/-- A character that is neither a blank nor a word character. -/
def isMark (c : Char) : Bool := !isBlank c && !isWord c

theorem forall_of_all_isMark {text : List Char} (h : text.all isMark = true) :
    ∀ c ∈ text, isBlank c = false ∧ isWord c = false := by
  simpa [isMark] using h

/-- The module of a statement and what ends the statement. -/
theorem Source.Fits.quiet {α : Type} {phrase : Phrase α} {words : List String} {source : Source}
    (fits : source.Fits) (opens : Opens words phrase)
    (letters : ∀ word ∈ words, IsIdentifier word.toList) {front closing : List Char}
    (before : front.all (!isBlank ·) = true) (behind : closing.all isMark = true)
    (apart : ∀ word ∈ words, Stops (· ∈ word.toList) rest) :
    Quiet phrase rest (front ++ (source.text ++ (closing ++ source.ending))) := by
  have ending : source.ending.all isMark = true := by
    unfold Source.ending
    split <;> decide
  have closed : ∀ c ∈ source.mark :: (closing ++ source.ending),
      isBlank c = false ∧ isWord c = false := by
    rw [List.forall_mem_cons, List.forall_mem_append]
    exact ⟨⟨source.isBlank_mark, source.isWord_mark⟩, forall_of_all_isMark behind,
      forall_of_all_isMark ending⟩
  have free : ∀ c ∈ (front ++ source.mark :: source.name) ++
      source.mark :: (closing ++ source.ending), isBlank c = false := by
    rw [List.forall_mem_append, List.forall_mem_append, List.forall_mem_cons]
    exact ⟨⟨by simpa using before, source.isBlank_mark, fits.free⟩, fun c hc => (closed c hc).1⟩
  have whole : front ++ (source.text ++ (closing ++ source.ending)) =
      (front ++ source.mark :: source.name) ++ source.mark :: (closing ++ source.ending) := by
    simp only [Source.text, List.append_assoc, List.cons_append, List.nil_append]
  rw [whole]
  exact opens.quiet_closed letters free (List.cons_ne_nil _ _) (fun c hc => (closed c hc).2) apart

/-! ## Imports -/

theorem opens_moduleImport : Opens ["import"] moduleImport := by
  apply opens_of_word
  intro start text none
  unfold moduleImport
  simp only [Option.bind_eq_bind]
  rw [← Option.bind_assoc, none, Option.bind_none]

theorem moreNames_of_ne {c : Char} (h : c ≠ ',') (blank : isBlank c = false) (text : List Char) :
    moreNames (' ' :: c :: text) = ([], ' ' :: c :: text) := by
  have front : ",".toList = ',' :: [] := by decide
  unfold moreNames
  rw [skipBlanks_space (stops_cons blank text), word?_cons_of_ne front h]
  rfl

theorem moreNames_inBraces {texts : List (List Char)}
    (h : ∀ c ∈ commaList texts, isListed c = true) (rest : List Char) :
    moreNames (',' :: ' ' :: (inBraces texts ++ rest)) = (commaList texts ++ [' '], rest) := by
  have comma (text : List Char) : word? "," (',' :: text) = some text := word?_append "," text
  have first : Stops isBlank (',' :: ' ' :: (inBraces texts ++ rest)) := stops_cons (by decide) _
  have second : Stops isBlank (inBraces texts ++ rest) := stops_cons (by decide) _
  unfold moreNames
  rw [skipBlanks_of_stops first, comma, Option.bind_some, skipBlanks_space second,
    braced?_inBraces h]

theorem braced?_identifier {name : List Char} (fits : IsIdentifier name) (rest : List Char) :
    braced? (name ++ rest) = none := by
  obtain ⟨c, name, rfl⟩ := List.exists_cons_of_ne_nil fits.ne_nil
  exact braced?_of_ne (ne_of_isWord (fits.word c List.mem_cons_self) (by decide)) _

theorem run?_identifier {name : List Char} (fits : IsIdentifier name) {c : Char}
    (h : isWord c = false) (rest : List Char) :
    run? isWord (name ++ c :: rest) = some (name, c :: rest) :=
  run?_append fits.ne_nil fits.word (stops_cons h rest)

theorem Bound.Fits.binding? {bound : Bound} (fits : bound.Fits) {c : Char} (h : c ≠ ',')
    (blank : isBlank c = false) (rest : List Char) :
    ∃ b, binding? (bound.text ++ ' ' :: c :: rest) = some (b, ' ' :: c :: rest) ∧
      b.names true = bound.names.map String.ofList := by
  have word : isWord ' ' = false := by decide
  cases bound with
  | single name =>
    have called : name.isEmpty = false := by simpa using IsIdentifier.ne_nil fits
    refine ⟨⟨name, []⟩, ?_, ?_⟩
    · unfold Import.binding? Bound.text
      simp only [braced?_identifier fits, run?_identifier fits word, Option.map_some,
        moreNames_of_ne h blank]
    · simp [Binding.names, called, Bound.names, itemNames_nil]
  | several items =>
    refine ⟨⟨[], commaList (items.map Item.text) ++ [' ']⟩, ?_, ?_⟩
    · unfold Import.binding? Bound.text
      rw [braced?_inBraces (listed_items fits.2)]
    · exact itemNames_inBraces fits.1 fits.2
  | both name items =>
    have called : name.isEmpty = false := by simpa using fits.1.ne_nil
    have comma : isWord ',' = false := by decide
    have listed := listed_items fits.2.2
    refine ⟨⟨name, commaList (items.map Item.text) ++ [' ']⟩, ?_, ?_⟩
    · unfold Import.binding? Bound.text
      simp only [List.append_assoc, List.cons_append, braced?_identifier fits.1,
        run?_identifier fits.1 comma, Option.map_some, moreNames_inBraces listed]
    · simp [Binding.names, called, Bound.names, itemNames_inBraces fits.2.1 fits.2.2]

theorem quoted?_text {source : Source} (fits : source.Fits) (rest : List Char) :
    quoted? (source.text ++ rest) = some (source.name, rest) := by
  rw [← quoted?_append source.isQuotable_mark fits.ne_nil fits.quotable rest, Source.text]
  simp only [List.cons_append, List.append_assoc, List.nil_append]

/-- What a bound text begins with. -/
theorem Bound.Fits.stops {bound : Bound} (fits : bound.Fits) (rest : List Char) :
    Stops isBlank (bound.text ++ rest) := by
  cases bound with
  | single name => exact IsToken.stops (IsIdentifier.isToken fits) rest
  | several items => exact stops_cons (by decide) _
  | both name items =>
    rw [Bound.text, List.append_assoc]
    exact fits.1.isToken.stops _

theorem stops_text (source : Source) (rest : List Char) : Stops isBlank (source.text ++ rest) :=
  stops_cons source.isBlank_mark _

theorem moduleImport_binding {bound : Bound} {source : Source} (hb : bound.Fits)
    (hs : source.Fits) (start : Bool) (rest : List Char) :
    moduleImport start ("import".toList ++ ' ' ::
        (bound.text ++ (" from ".toList ++ (source.text ++ rest)))) =
      some ((Form.binding bound source).clause, rest) := by
  have spaced : " from ".toList ++ (source.text ++ rest) =
      ' ' :: ("from".toList ++ ' ' :: (source.text ++ rest)) := rfl
  have before : Stops isBlank ("from".toList ++ ' ' :: (source.text ++ rest)) :=
    stops_cons (by decide) _
  obtain ⟨b, read, names⟩ := hb.binding? (c := 'f') (by decide) (by decide)
    ("rom".toList ++ ' ' :: (source.text ++ rest))
  have read : binding? (bound.text ++ ' ' :: ("from".toList ++ ' ' :: (source.text ++ rest))) =
      some (b, ' ' :: ("from".toList ++ ' ' :: (source.text ++ rest))) := read
  unfold moduleImport Form.clause
  rw [spaced]
  simp only [word?_append, Option.bind_eq_bind, Option.bind_some, blanks?_space (hb.stops _),
    read, blanks?_space before, blanks?_space (stops_text source rest),
    quoted?_text hs, names, Option.pure_def]

/-- Behind the word and a blank the phrase goes on with a name or a brace. -/
theorem moduleImport_of_other {c : Char} (word : isWord c = false) (brace : c ≠ Char.ofNat 123)
    (blank : isBlank c = false) (rest : List Char) :
    moduleImport start ("import".toList ++ ' ' :: c :: rest) = none := by
  unfold moduleImport binding?
  simp only [word?_append, Option.bind_eq_bind, Option.bind_some,
    blanks?_space (stops_cons blank rest), braced?_of_ne brace,
    run?_of_stops (stops_cons word rest), Option.map_none, Option.bind_none]

/-! ## Calls of `require` -/

theorem declarator?_append {word : String} (mem : word ∈ declarators) (rest : List Char) :
    declarator? (word.toList ++ rest) = some rest := by
  have l : "let".toList = 'l' :: "et".toList := by decide
  have v : "var".toList = 'v' :: "ar".toList := by decide
  have c : "const".toList = 'c' :: "onst".toList := by decide
  have words : word = "const" ∨ word = "let" ∨ word = "var" := by
    simpa only [declarators, List.mem_cons, List.not_mem_nil, or_false] using mem
  unfold declarator?
  rcases words with rfl | rfl | rfl
  · rw [word?_append, Option.some_or, Option.some_or]
  · rw [word?_append, l, List.cons_append, word?_cons_of_ne c (by decide), Option.none_or,
      Option.some_or]
  · rw [word?_append, v, List.cons_append, word?_cons_of_ne c (by decide),
      word?_cons_of_ne l (by decide), Option.none_or, Option.none_or]

theorem opens_requireCall : Opens declarators requireCall := by
  intro start text read
  unfold requireCall at read
  cases front : declarator? text with
  | none => simp [front] at read
  | some rest =>
    have blank : blanks? rest ≠ none := fun none => by simp [front, none] at read
    unfold declarator? at front
    rcases Option.or_eq_some_iff.1 front with h | ⟨-, h⟩
    · rcases Option.or_eq_some_iff.1 h with h | ⟨-, h⟩
      · exact ⟨"const", by decide, rest, h, blank⟩
      · exact ⟨"let", by decide, rest, h, blank⟩
    · exact ⟨"var", by decide, rest, h, blank⟩

theorem Declared.Fits.target? {declared : Declared} (fits : declared.Fits) (rest : List Char) :
    ∃ b, target? (declared.text ++ ' ' :: rest) = some (b, ' ' :: rest) ∧
      b.names false = declared.names.map String.ofList := by
  have word : isWord ' ' = false := by decide
  cases declared with
  | single name =>
    have called : name.isEmpty = false := by simpa using IsIdentifier.ne_nil fits
    refine ⟨⟨name, []⟩, ?_, ?_⟩
    · unfold Import.target? Declared.text
      simp only [braced?_identifier fits, run?_identifier fits word, Option.map_some]
    · simp [Binding.names, called, Declared.names, itemNames_nil]
  | several names =>
    refine ⟨⟨[], commaList names ++ [' ']⟩, ?_, ?_⟩
    · unfold Import.target? Declared.text
      rw [braced?_inBraces (listed_names fits.2)]
    · exact itemNames_names fits.1 fits.2 blank_space

theorem Declared.Fits.stops {declared : Declared} (fits : declared.Fits) (rest : List Char) :
    Stops isBlank (declared.text ++ rest) := by
  cases declared with
  | single name => exact IsToken.stops (IsIdentifier.isToken fits) rest
  | several names => exact stops_cons (by decide) _

theorem requireCall_require {word : String} {declared : Declared} {source : Source}
    (mem : word ∈ declarators) (hd : declared.Fits) (hs : source.Fits) (start : Bool)
    (rest : List Char) :
    requireCall start (word.toList ++ ' ' :: (declared.text ++ (" = require(".toList ++
        (source.text ++ ')' :: rest)))) =
      some ((Form.require word declared source).clause, rest) := by
  have spaced : " = require(".toList ++ (source.text ++ ')' :: rest) = ' ' :: ("=".toList ++
      ' ' :: ("require".toList ++ ("(".toList ++ (source.text ++ ')' :: rest)))) := rfl
  obtain ⟨b, read, names⟩ := hd.target?
    ("=".toList ++ ' ' :: ("require".toList ++ ("(".toList ++ (source.text ++ ')' :: rest))))
  have equals : Stops isBlank
      ("=".toList ++ ' ' :: ("require".toList ++ ("(".toList ++ (source.text ++ ')' :: rest)))) :=
    stops_cons (by decide) _
  have call : Stops isBlank ("require".toList ++ ("(".toList ++ (source.text ++ ')' :: rest))) :=
    stops_cons (by decide) _
  have opening : Stops isBlank ("(".toList ++ (source.text ++ ')' :: rest)) :=
    stops_cons (by decide) _
  have closing : Stops isBlank (')' :: rest) := stops_cons (by decide) _
  have closed : word? ")" (')' :: rest) = some rest := word?_append ")" rest
  unfold requireCall Form.clause
  rw [spaced]
  simp only [declarator?_append mem, Option.bind_eq_bind, Option.bind_some,
    blanks?_space (hd.stops _), read, skipBlanks_space equals, word?_append,
    skipBlanks_space call, skipBlanks_of_stops opening,
    skipBlanks_of_stops (stops_text source (')' :: rest)), quoted?_text hs,
    skipBlanks_of_stops closing, closed, names, Option.pure_def]

theorem requireCall_of_other {word : String} (mem : word ∈ declarators) {c : Char}
    (other : isWord c = false) (brace : c ≠ Char.ofNat 123) (blank : isBlank c = false)
    (rest : List Char) : requireCall start (word.toList ++ ' ' :: c :: rest) = none := by
  unfold requireCall target?
  simp only [declarator?_append mem, Option.bind_eq_bind, Option.bind_some,
    blanks?_space (stops_cons blank rest), braced?_of_ne brace,
    run?_of_stops (stops_cons other rest), Option.map_none, Option.bind_none]

/-- Behind the name that is declared stands the sign for it. -/
theorem requireCall_of_name {word : String} (mem : word ∈ declarators) {name : List Char}
    (fits : IsIdentifier name) {c : Char} (other : c ≠ '=') (blank : isBlank c = false)
    (rest : List Char) :
    requireCall start (word.toList ++ ' ' :: (name ++ ' ' :: c :: rest)) = none := by
  have sign : "=".toList = '=' :: [] := by decide
  have noWord : isWord ' ' = false := by decide
  unfold requireCall target?
  simp only [declarator?_append mem, Option.bind_eq_bind, Option.bind_some,
    blanks?_space (fits.isToken.stops _), braced?_identifier fits, run?_identifier fits noWord,
    Option.map_some, skipBlanks_space (stops_cons blank rest), word?_cons_of_ne sign other,
    Option.bind_none]

/-! ## Lines -/

theorem letters_import : ∀ word ∈ ["import"], IsIdentifier word.toList := by decide

theorem letters_declarators : ∀ word ∈ declarators, IsIdentifier word.toList := by decide

/-- In a declaration no name is followed by what an import goes on with. -/
theorem quiet_declared {declared : Declared} (fits : declared.Fits) (rest : List Char) :
    Quiet moduleImport (' ' :: '=' :: rest) declared.text := by
  have comma : ¬isBlank ',' = true := by decide
  cases declared with
  | single name =>
    refine opens_moduleImport.quiet_identifier fits (by decide) fun _ word mem => ?_
    obtain rfl := List.mem_singleton.1 mem
    exact moduleImport_of_other (by decide) (by decide) (by decide) rest
  | several names =>
    refine opens_moduleImport.quiet_inBraces (by decide) (fun name mem more => ?_)
      (fun name mem more => ?_) _
    · exact opens_moduleImport.quiet_identifier (fits.2 name mem) (by decide) (absurd · comma)
    · refine opens_moduleImport.quiet_identifier (fits.2 name mem) (by decide) fun _ word mem => ?_
      obtain rfl := List.mem_singleton.1 mem
      exact moduleImport_of_other (by decide) (by decide) (by decide) more

/-- A declaration opens no import. -/
theorem quiet_require {word : String} {declared : Declared} {source : Source}
    (mem : word ∈ declarators) (hd : declared.Fits) (hs : source.Fits)
    (apart : ∀ word ∈ ["import"], Stops (· ∈ word.toList) rest) :
    Quiet moduleImport rest (Form.require word declared source).text := by
  have letters : ∀ word ∈ declarators,
      (word.toList ++ [' ']).all (isInitialOfNone ["import"]) = true := by decide
  have parts : (Form.require word declared source).text = word.toList ++ [' '] ++
      (declared.text ++ (" = ".toList ++
        ("require(".toList ++ (source.text ++ ([')'] ++ source.ending))))) := by
    simp only [Form.text, wordThen, List.append_assoc, List.cons_append, List.nil_append]
    rfl
  rw [parts]
  apply quiet_append (opens_moduleImport.quiet _ (letters word mem))
  apply quiet_append (quiet_declared hd _)
  apply quiet_append (opens_moduleImport.quiet _ (by decide))
  exact hs.quiet opens_moduleImport letters_import (by decide) (by decide) apart

/-- In an item of an import neither the name nor the alias is followed by what a declaration goes on
with. -/
theorem quiet_item {item : Item} (fits : item.Fits) {c : Char}
    (apart : ∀ word ∈ declarators, c ∉ word.toList)
    (ends : isBlank c = true →
      ∀ word ∈ declarators, requireCall false (word.toList ++ c :: rest) = none) :
    Quiet requireCall (c :: rest) item.text := by
  unfold Item.text
  split
  · exact opens_requireCall.quiet_identifier fits.name apart ends
  · rename_i other isAlias
    have called := fits.other other isAlias
    obtain ⟨d, more, rfl⟩ := List.exists_cons_of_ne_nil called.ne_nil
    have letter : isWord d = true := called.word d List.mem_cons_self
    have as : IsIdentifier "as".toList := by decide
    have sign : d ≠ '=' := ne_of_isWord letter (by decide)
    apply quiet_append
    · show Quiet requireCall (' ' :: ("as".toList ++ ' ' :: d :: (more ++ c :: rest))) item.name
      exact opens_requireCall.quiet_identifier fits.name (by decide) fun _ word mem =>
        requireCall_of_name mem as sign (isBlank_eq_false letter) _
    · apply quiet_append (opens_requireCall.quiet _ (by decide))
      exact opens_requireCall.quiet_identifier called apart ends

/-- In an import no name is followed by what a declaration goes on with. -/
theorem quiet_bound {bound : Bound} (fits : bound.Fits) {c : Char} (other : c ≠ '=')
    (blank : isBlank c = false) (rest : List Char) :
    Quiet requireCall (" from ".toList ++ c :: rest) bound.text := by
  have comma : ¬isBlank ',' = true := by decide
  have items {items : List Item} (fits : ∀ item ∈ items, item.Fits) (rest : List Char) :
      Quiet requireCall rest (inBraces (items.map Item.text)) := by
    refine opens_requireCall.quiet_inBraces (by decide)
      (List.forall_mem_map.2 fun item mem more => ?_)
      (List.forall_mem_map.2 fun item mem more => ?_) rest
    · exact quiet_item (fits item mem) (by decide) (absurd · comma)
    · refine quiet_item (fits item mem) (by decide) fun _ word mem => ?_
      exact requireCall_of_other mem (by decide) (by decide) (by decide) more
  cases bound with
  | single name =>
    refine opens_requireCall.quiet_identifier fits (by decide) fun _ word mem => ?_
    have called : IsIdentifier "from".toList := by decide
    exact requireCall_of_name mem called other blank rest
  | several chosen => exact items fits.2 _
  | both name chosen =>
    apply quiet_append (opens_requireCall.quiet_identifier fits.1 (by decide) (absurd · comma))
    show Quiet _ _ (", ".toList ++ inBraces (chosen.map Item.text))
    exact quiet_append (opens_requireCall.quiet _ (by decide)) (items fits.2.2 _)

/-- An import opens no declaration. -/
theorem quiet_binding {bound : Bound} {source : Source} (hb : bound.Fits)
    (hs : source.Fits) (apart : ∀ word ∈ declarators, Stops (· ∈ word.toList) rest) :
    Quiet requireCall rest (Form.binding bound source).text := by
  have other : source.mark ≠ '=' := fun same => by
    have mark := source.isQuotable_mark
    rw [same] at mark
    cases mark
  have parts : (Form.binding bound source).text = "import ".toList ++
      (bound.text ++ (" from ".toList ++ ([] ++ (source.text ++ ([] ++ source.ending))))) := rfl
  rw [parts]
  apply quiet_append (opens_requireCall.quiet _ (by decide))
  apply quiet_append
  · exact quiet_bound hb other source.isBlank_mark _
  · apply quiet_append (opens_requireCall.quiet _ (by decide))
    exact hs.quiet opens_requireCall letters_declarators (by decide) (by decide) apart

/-- A search for imports finds those of the lines. -/
theorem lineByLine_moduleImport {language : Language}
    (script : language = .javascript ∨ language = .typescript) :
    LineByLine moduleImport Form.text
      (fun form => if form.isLeading then some form.clause else none)
      (Form.Fits language) where
  feed start more := opens_moduleImport.none_of_ne (by decide) more
  line form lines feeds n fits later := by
    have noFeed := fits.noFeed
    obtain ⟨bound, source, rfl⟩ | ⟨word, declared, source, rfl⟩ := fits.script script
    · obtain ⟨-, hb, hs⟩ := fits
      have parts : (Form.binding bound source).text = "import".toList ++ ' ' ::
          (bound.text ++ (" from ".toList ++ source.text)) ++ source.ending := by
        simp only [Form.text, wordThen, List.append_assoc, List.cons_append]
      have quiet : Quiet moduleImport (behind Form.text lines feeds) source.ending :=
        opens_moduleImport.quiet _ (by unfold Source.ending; split <;> decide)
      have read := moduleImport_binding hb hs true
        (source.ending ++ behind Form.text lines feeds)
      rw [parts] at noFeed ⊢
      refine findFrom_of_read_line (by simp) noFeed ?_ quiet
      simpa only [List.append_assoc, List.cons_append] using read
    · obtain ⟨-, mem, hd, hs⟩ := fits
      have apart : ∀ word ∈ ["import"], Stops (· ∈ word.toList) (behind Form.text lines feeds) := by
        intro word mem
        obtain rfl := List.mem_singleton.1 mem
        exact stops_behind (by decide) lines feeds
      have quiet := quiet_require mem hd hs apart
      have filled := (Form.require word declared source).text_ne_nil
      exact findFrom_of_quiet_line filled (quiet.none filled) quiet noFeed

/-- A search for calls of `require` finds those of the lines. -/
theorem lineByLine_requireCall {language : Language}
    (script : language = .javascript ∨ language = .typescript) :
    LineByLine requireCall Form.text
      (fun form => if !form.isLeading then some form.clause else none)
      (Form.Fits language) where
  feed start more := opens_requireCall.none_of_ne (by decide) more
  line form lines feeds n fits later := by
    have noFeed := fits.noFeed
    obtain ⟨bound, source, rfl⟩ | ⟨word, declared, source, rfl⟩ := fits.script script
    · obtain ⟨-, hb, hs⟩ := fits
      have inside : ∀ word ∈ declarators, '\n' ∉ word.toList := by decide
      have apart : ∀ word ∈ declarators, Stops (· ∈ word.toList) (behind Form.text lines feeds) :=
        fun word mem => stops_behind (decide_eq_false (inside word mem)) lines feeds
      have quiet := quiet_binding hb hs apart
      have filled := (Form.binding bound source).text_ne_nil
      exact findFrom_of_quiet_line filled (quiet.none filled) quiet noFeed
    · obtain ⟨-, mem, hd, hs⟩ := fits
      have parts : (Form.require word declared source).text = word.toList ++ ' ' ::
          (declared.text ++ (" = require(".toList ++ (source.text ++ [')']))) ++ source.ending := by
        simp only [Form.text, wordThen, List.append_assoc, List.cons_append, List.nil_append]
      have quiet : Quiet requireCall (behind Form.text lines feeds) source.ending :=
        opens_requireCall.quiet _ (by unfold Source.ending; split <;> decide)
      have read := requireCall_require mem hd hs true
        (source.ending ++ behind Form.text lines feeds)
      rw [parts] at noFeed ⊢
      refine findFrom_of_read_line (by simp) noFeed ?_ quiet
      simpa only [List.append_assoc, List.cons_append, List.nil_append] using read

end CodeGraph.Import
