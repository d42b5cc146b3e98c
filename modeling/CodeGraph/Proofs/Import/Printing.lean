import CodeGraph.Proofs.Import.Names

/-!
# Printed import statements

An import statement in one of the forms that are read (`Form`), the line that it is written as
(`Form.text`) and what it says (`Form.statement`).  `Form.Fits` tells the statements of a language
whose names are names.  A text of such statements has one on each line and any number of line feeds
at its end (`printed`).
-/

namespace CodeGraph.Import

open CodeGraph.Text

/-! ## Parts of statements -/

/-- Segments with dots between them. -/
def dotted (segments : List (List Char)) : List Char := joinWith '.' segments

/-- Segments with dots between them and in front. -/
def relative (dots : Nat) (segments : List (List Char)) : List Char :=
  List.replicate dots '.' ++ dotted segments

/-- Names in braces. -/
def inBraces (texts : List (List Char)) : List Char :=
  "\x7b".toList ++ (commaList texts ++ ' ' :: "\x7d".toList)

/-- What an import binds: a default, some of the names, or both. -/
inductive Bound where
  | single (name : List Char)
  | several (items : List Item)
  | both (name : List Char) (items : List Item)

namespace Bound

/-- `d`, `{ a, b as c }` or `d, { a, b as c }`. -/
def text : Bound → List Char
  | single name => name
  | several items => inBraces (items.map Item.text)
  | both name items => name ++ ',' :: ' ' :: inBraces (items.map Item.text)

/-- The names that are bound, without their aliases. -/
def names : Bound → List (List Char)
  | single name => [name]
  | several items => items.map Item.name
  | both name items => name :: items.map Item.name

def Fits : Bound → Prop
  | single name => IsIdentifier name
  | several items => items ≠ [] ∧ ∀ item ∈ items, item.Fits
  | both name items => IsIdentifier name ∧ items ≠ [] ∧ ∀ item ∈ items, item.Fits

instance (bound : Bound) : Decidable bound.Fits := by
  unfold Fits
  split <;> infer_instance

end Bound

/-- What a declaration declares: one variable, or some of the names of a module. -/
inductive Declared where
  | single (name : List Char)
  | several (names : List (List Char))

namespace Declared

/-- `d` or `{ a, b }`. -/
def text : Declared → List Char
  | single name => name
  | several names => inBraces names

def names : Declared → List (List Char)
  | single name => [name]
  | several names => names

def Fits : Declared → Prop
  | single name => IsIdentifier name
  | several names => names ≠ [] ∧ ∀ name ∈ names, IsIdentifier name

instance (declared : Declared) : Decidable declared.Fits := by
  unfold Fits
  split <;> infer_instance

end Declared

/-- A module in quotation marks, at the end of a statement with or without a semicolon. -/
structure Source where
  name : List Char
  isDouble : Bool
  hasSemicolon : Bool

namespace Source

/-- The quotation mark. -/
def mark (source : Source) : Char := if source.isDouble then Char.ofNat 34 else Char.ofNat 39

theorem isQuotable_mark (source : Source) : isQuotable source.mark = false := by
  unfold mark
  split <;> decide

theorem isBlank_mark (source : Source) : isBlank source.mark = false := by
  unfold mark
  split <;> decide

theorem isWord_mark (source : Source) : isWord source.mark = false := by
  unfold mark
  split <;> decide

/-- `'M'` -/
def text (source : Source) : List Char := source.mark :: (source.name ++ [source.mark])

/-- The end of the statement. -/
def ending (source : Source) : List Char := if source.hasSemicolon then [';'] else []

/-- The name has no blanks and no quotation marks. -/
structure Fits (source : Source) : Prop where
  ne_nil : source.name ≠ []
  free : ∀ c ∈ source.name, isBlank c = false
  quotable : ∀ c ∈ source.name, isQuotable c = true

instance (source : Source) : Decidable source.Fits :=
  decidable_of_iff (source.name ≠ [] ∧ source.name.all (!isBlank ·) = true ∧
      source.name.all isQuotable = true)
    ⟨fun h => ⟨h.1, by simpa using h.2.1, List.all_eq_true.1 h.2.2⟩,
      fun h => ⟨h.ne_nil, by simpa using h.free, List.all_eq_true.2 h.quotable⟩⟩

end Source

/-! ## Statements -/

/-- An import statement. -/
inductive Form where
  /-- `from M import a, b as c`, the module with dots in front. -/
  | names (dots : Nat) (segments : List (List Char)) (items : List Item)
  /-- `import M` -/
  | module (segments : List (List Char))
  /-- `import M;` and `import static M;` -/
  | path (isStatic : Bool) (segments : List (List Char))
  /-- `import d, { a, b as c } from 'M'` -/
  | binding (bound : Bound) (source : Source)
  /-- `const { a, b } = require('M')`, also with the other words that declare variables. -/
  | require (word : String) (declared : Declared) (source : Source)

/-- The words that declare variables. -/
def declarators : List String := ["const", "let", "var"]

/-- A word, a space and what stands behind them. -/
def wordThen (word : String) (rest : List Char) : List Char := word.toList ++ ' ' :: rest

namespace Form

/-- The line of a statement. -/
def text : Form → List Char
  | names dots segments items =>
    wordThen "from" (relative dots segments ++
      ' ' :: ("import".toList ++ commaList (items.map Item.text)))
  | module segments => wordThen "import" (dotted segments)
  | path isStatic segments =>
    wordThen "import" ((if isStatic then "static ".toList else []) ++ (dotted segments ++ [';']))
  | binding bound source =>
    wordThen "import" (bound.text ++ (" from ".toList ++ (source.text ++ source.ending)))
  | require word declared source =>
    wordThen word (declared.text ++
      (" = require(".toList ++ (source.text ++ ')' :: source.ending)))

/-- What a statement says: its module as it is written, and the names that it takes from it; of a
module that is imported as a whole the last segment is its name. -/
def clause : Form → Clause
  | names dots segments items =>
    ⟨String.ofList (relative dots segments), items.map fun item => String.ofList item.name⟩
  | module segments => ⟨String.ofList (dotted segments), [String.ofList (segments.getLastD [])]⟩
  | path _ segments => ⟨String.ofList (dotted segments), [String.ofList (segments.getLastD [])]⟩
  | binding bound source => ⟨String.ofList source.name, bound.names.map String.ofList⟩
  | require _ declared source => ⟨String.ofList source.name, declared.names.map String.ofList⟩

/-- A statement on a line. -/
def statement (form : Form) (line : Nat) : Statement :=
  ⟨form.clause.source, form.clause.names, line⟩

/-- Is the statement of the form that is listed first? -/
def isLeading : Form → Bool
  | names .. => true
  | module _ => false
  | path .. => true
  | binding .. => true
  | require .. => false

/-- The statements of a language.  A segment of a module of Python is not the word `import`. -/
def Fits (language : Language) : Form → Prop
  | names dots segments items =>
    language = .python ∧ (dots ≠ 0 ∨ segments ≠ []) ∧
      (∀ segment ∈ segments, IsIdentifier segment ∧ segment ≠ "import".toList) ∧
      items ≠ [] ∧ ∀ item ∈ items, item.Fits
  | module segments =>
    language = .python ∧ segments ≠ [] ∧
      ∀ segment ∈ segments, IsIdentifier segment ∧ segment ≠ "import".toList
  | path _ segments =>
    language = .java ∧ segments ≠ [] ∧ ∀ segment ∈ segments, IsIdentifier segment
  | binding bound source =>
    (language = .javascript ∨ language = .typescript) ∧ bound.Fits ∧ source.Fits
  | require word declared source =>
    (language = .javascript ∨ language = .typescript) ∧ word ∈ declarators ∧ declared.Fits ∧
      source.Fits

instance (language : Language) (form : Form) : Decidable (form.Fits language) := by
  cases form <;> exact inferInstanceAs (Decidable (_ ∧ _))

variable {language : Language} {form : Form}

theorem Fits.python (fits : form.Fits .python) :
    (∃ dots segments items, form = names dots segments items) ∨
      ∃ segments, form = module segments := by
  cases form with
  | names dots segments items => exact .inl ⟨dots, segments, items, rfl⟩
  | module segments => exact .inr ⟨segments, rfl⟩
  | path isStatic segments => cases fits.1
  | binding bound source => rcases fits.1 with h | h <;> cases h
  | require word declared source => rcases fits.1 with h | h <;> cases h

theorem Fits.java (fits : form.Fits .java) :
    ∃ isStatic segments, form = path isStatic segments := by
  cases form with
  | path isStatic segments => exact ⟨isStatic, segments, rfl⟩
  | names dots segments items => cases fits.1
  | module segments => cases fits.1
  | binding bound source => rcases fits.1 with h | h <;> cases h
  | require word declared source => rcases fits.1 with h | h <;> cases h

theorem Fits.script (fits : form.Fits language)
    (script : language = .javascript ∨ language = .typescript) :
    (∃ bound source, form = binding bound source) ∨
      ∃ word declared source, form = require word declared source := by
  cases form with
  | binding bound source => exact .inl ⟨bound, source, rfl⟩
  | require word declared source => exact .inr ⟨word, declared, source, rfl⟩
  | names dots segments items => rcases script with rfl | rfl <;> cases fits.1
  | module segments => rcases script with rfl | rfl <;> cases fits.1
  | path isStatic segments => rcases script with rfl | rfl <;> cases fits.1

end Form

/-- Statements line by line, with line feeds at the end. -/
def printed (forms : List Form) (feeds : Nat) : List Char :=
  joinWith '\n' (forms.map Form.text) ++ List.replicate feeds '\n'

/-- The statements of a class, in their order, with the numbers of their lines. -/
def numbered (p : Form → Bool) (forms : List Form) : List Statement :=
  ((forms.zipIdx 1).filter (p ·.1)).map fun (form, line) => form.statement line

/-! ## Modules -/

variable {segments : List (List Char)}

/-- The characters of a dotted module. -/
theorem forall_mem_relative {q : Char → Prop} (dot : q '.') (word : ∀ c, isWord c = true → q c)
    (h : ∀ segment ∈ segments, IsIdentifier segment) (dots : Nat) :
    ∀ c ∈ relative dots segments, q c := by
  have inside : ∀ segment ∈ segments, ∀ c ∈ segment, q c := fun segment mem c hc =>
    word c ((h segment mem).word c hc)
  intro c hc
  rcases List.mem_append.1 hc with hc | hc
  · rwa [List.eq_of_mem_replicate hc]
  · exact forall_mem_joinWith dot inside c hc

theorem isToken_relative {dots : Nat} (filled : dots ≠ 0 ∨ segments ≠ [])
    (h : ∀ segment ∈ segments, IsIdentifier segment) : IsToken (relative dots segments) where
  ne_nil := by
    rw [relative, Ne, List.append_eq_nil_iff, List.replicate_eq_nil_iff, not_and_or]
    exact filled.imp_right fun some =>
      joinWith_ne_nil some fun segment mem => (h segment mem).ne_nil
  free := forall_mem_relative (by decide) (fun _ => isBlank_eq_false) h dots

theorem isToken_dotted (filled : segments ≠ [])
    (h : ∀ segment ∈ segments, IsIdentifier segment) : IsToken (dotted segments) :=
  @isToken_relative segments 0 (.inr filled) h

/-- A module none of whose segments is the word `import` is not this word. -/
theorem relative_ne_import {dots : Nat}
    (h : ∀ segment ∈ segments, IsIdentifier segment ∧ segment ≠ "import".toList) :
    relative dots segments ≠ "import".toList := by
  intro same
  have noDot : '.' ∉ relative dots segments := by
    rw [same]
    decide
  have none : dots = 0 := by
    by_contra some
    exact noDot (List.mem_append_left _ (List.mem_replicate.2 ⟨some, rfl⟩))
  subst none
  have whole : joinWith '.' segments = "import".toList := same
  have filled : segments ≠ [] := by
    rintro rfl
    cases whole
  have free : ∀ segment ∈ segments, '.' ∉ segment := fun segment mem =>
    (h segment mem).1.notMem (by decide)
  have pieces := cutAt_joinWith filled free
  rw [whole, cutAt_of_notMem (by decide)] at pieces
  exact (h "import".toList (by rw [← pieces]; exact List.mem_singleton_self _)).2 rfl

theorem lastSegment_dotted (filled : segments ≠ [])
    (h : ∀ segment ∈ segments, IsIdentifier segment) :
    lastSegment (dotted segments) = segments.getLastD [] := by
  have free : ∀ segment ∈ segments, '.' ∉ segment := fun segment mem =>
    (h segment mem).notMem (by decide)
  rw [lastSegment, lastPiece, dotted, cutAt_joinWith filled free]

/-! ## Lines -/

theorem noFeed_inBraces {texts : List (List Char)} (h : ∀ c ∈ commaList texts, isListed c = true) :
    '\n' ∉ inBraces texts := by
  have inside : '\n' ∉ commaList texts := fun mem => ne_of_isListed (h _ mem) (by decide) rfl
  have opening : '\n' ∉ "\x7b".toList := by decide
  have closing : '\n' ∉ ' ' :: "\x7d".toList := by decide
  simp only [inBraces, List.mem_append, opening, inside, closing, or_self, not_false_iff]

theorem Bound.Fits.noFeed {bound : Bound} (fits : bound.Fits) : '\n' ∉ bound.text := by
  cases bound with
  | single name => exact IsIdentifier.notMem fits (by decide)
  | several items => exact noFeed_inBraces (listed_items fits.2)
  | both name items =>
    have called : '\n' ∉ name := fits.1.notMem (by decide)
    have comma : '\n' ≠ ',' := by decide
    have space : '\n' ≠ ' ' := by decide
    have braces := noFeed_inBraces (listed_items fits.2.2)
    simp only [Bound.text, List.mem_append, List.mem_cons, called, comma, space, braces, or_self,
      not_false_iff]

theorem Declared.Fits.noFeed {declared : Declared} (fits : declared.Fits) :
    '\n' ∉ declared.text := by
  cases declared with
  | single name => exact IsIdentifier.notMem fits (by decide)
  | several names => exact noFeed_inBraces (listed_names fits.2)

theorem Source.Fits.noFeed {source : Source} (fits : source.Fits) : '\n' ∉ source.text := by
  have name : '\n' ∉ source.name := fun mem => absurd (fits.free _ mem) (by decide)
  have mark : '\n' ≠ source.mark := fun same => by
    have blank := source.isBlank_mark
    rw [← same] at blank
    cases blank
  simp only [Source.text, List.mem_cons, List.mem_append, name, mark, List.not_mem_nil, or_self,
    not_false_iff]

theorem Source.noFeed_ending (source : Source) : '\n' ∉ source.ending := by
  unfold Source.ending
  split <;> decide

theorem noFeed_relative (h : ∀ segment ∈ segments, IsIdentifier segment) (dots : Nat) :
    '\n' ∉ relative dots segments := fun mem =>
  forall_mem_relative (by decide) (fun _ word => ne_of_isWord word (by decide)) h dots _ mem rfl

theorem Form.text_ne_nil (form : Form) : form.text ≠ [] := by
  have filled (word : String) (rest : List Char) : wordThen word rest ≠ [] := by simp [wordThen]
  cases form <;> exact filled _ _

/-- A statement stands on one line. -/
theorem Form.Fits.noFeed {language : Language} {form : Form} (fits : form.Fits language) :
    '\n' ∉ form.text := by
  intro feed
  cases form with
  | names dots segments items =>
    have module := noFeed_relative (fun s mem => (fits.2.2.1 s mem).1) dots
    simp only [Form.text, wordThen, List.mem_append, List.mem_cons] at feed
    rcases feed with h | h | h | h | h | h
    · exact absurd h (by decide)
    · exact absurd h (by decide)
    · exact module h
    · exact absurd h (by decide)
    · exact absurd h (by decide)
    · exact ne_of_isListed (listed_items fits.2.2.2.2 _ h) (by decide) rfl
  | module segments =>
    have module := noFeed_relative (fun s mem => (fits.2.2 s mem).1) 0
    simp only [Form.text, wordThen, List.mem_append, List.mem_cons] at feed
    rcases feed with h | h | h
    · exact absurd h (by decide)
    · exact absurd h (by decide)
    · exact module h
  | path isStatic segments =>
    have static : '\n' ∉ if isStatic then "static ".toList else [] := by
      split <;> decide
    simp only [Form.text, wordThen, List.mem_append, List.mem_cons] at feed
    rcases feed with h | h | h | h | h
    · exact absurd h (by decide)
    · exact absurd h (by decide)
    · exact static h
    · exact noFeed_relative fits.2.2 0 h
    · exact absurd h (by decide)
  | binding bound source =>
    simp only [Form.text, wordThen, List.mem_append, List.mem_cons] at feed
    rcases feed with h | h | h | h | h | h
    · exact absurd h (by decide)
    · exact absurd h (by decide)
    · exact fits.2.1.noFeed h
    · exact absurd h (by decide)
    · exact fits.2.2.noFeed h
    · exact source.noFeed_ending h
  | require word declared source =>
    have words : ∀ word ∈ declarators, '\n' ∉ word.toList := by decide
    simp only [Form.text, wordThen, List.mem_append, List.mem_cons] at feed
    rcases feed with h | h | h | h | h | h | h
    · exact words word fits.2.1 h
    · exact absurd h (by decide)
    · exact fits.2.2.1.noFeed h
    · exact absurd h (by decide)
    · exact fits.2.2.2.noFeed h
    · exact absurd h (by decide)
    · exact source.noFeed_ending h

end CodeGraph.Import
