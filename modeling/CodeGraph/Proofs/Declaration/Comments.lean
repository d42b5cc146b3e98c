import CodeGraph.Declaration.Reader
import CodeGraph.Proofs.Text.Ends
import CodeGraph.Proofs.Text.Lines
import Mathlib.Data.List.Forall2

/-!
# What block comments say

A block comment says what its content says: the lines of the content without their gutters and
without blanks behind them (`IsContentText`, one text by `isContentText_iff`).  So the characters of
the documentation are characters of the content.  The comment without content is the one exception:
its two stars are taken for the beginning of a documentation comment, and the slash behind them is
left over (`cleanComment_blockComment`).
-/

namespace CodeGraph

open CodeGraph.Text

/-- The comment with this content between its marks. -/
def blockComment (content : List Char) : List Char := '/' :: '*' :: (content ++ ['*', '/'])

/-- A content without the star that makes its comment a documentation comment. -/
def withoutStar : List Char → List Char
  | '*' :: rest => rest
  | content => content

/-! ## Lines of comments -/

/-- What is left of a line without its gutter: blanks, a star, and a blank behind it if there is
one. -/
inductive WithoutGutter : List Char → List Char → Prop where
  | gap {blanks rest : List Char} {c : Char} (before : ∀ b ∈ blanks, isBlank b = true)
      (blank : isBlank c = true) : WithoutGutter (blanks ++ '*' :: c :: rest) rest
  | star {blanks rest : List Char} (before : ∀ b ∈ blanks, isBlank b = true)
      (visible : Stops isBlank rest) : WithoutGutter (blanks ++ '*' :: rest) rest
  | none {line : List Char} (free : (line.dropWhile isBlank).head? ≠ some '*') :
      WithoutGutter line line

/-- What a line of a comment says. -/
def IsLineText (line text : List Char) : Prop :=
  ∃ rest, WithoutGutter line rest ∧ text = trimEnd rest

/-- What the content of a comment says. -/
def IsContentText (content text : List Char) : Prop :=
  ∃ ls texts, HasLines (withoutStar content) ls ∧ List.Forall₂ IsLineText ls texts ∧
    text = trim (joinWith '\n' texts)

theorem withoutGutter_dropGutter (line : List Char) : WithoutGutter line (dropGutter line) := by
  have before : ∀ b ∈ line.takeWhile isBlank, isBlank b = true :=
    fun b hb => List.all_eq_true.1 List.all_takeWhile b hb
  have whole : line.takeWhile isBlank ++ line.dropWhile isBlank = line :=
    List.takeWhile_append_dropWhile
  unfold dropGutter
  split
  · rename_i c rest starred
    rw [starred] at whole
    conv_lhs => rw [← whole]
    split_ifs with blank
    · exact .gap before blank
    · exact .star before (stops_cons (Bool.eq_false_iff.2 blank) rest)
  · rename_i starred
    rw [starred] at whole
    conv_lhs => rw [← whole]
    exact .star before stops_nil
  · rename_i gap star
    refine .none fun first => ?_
    obtain ⟨rest, starred⟩ := List.head?_eq_some_iff.1 first
    cases rest with
    | nil => exact star starred
    | cons c rest => exact gap c rest starred

theorem WithoutGutter.eq_dropGutter {line rest : List Char} (h : WithoutGutter line rest) :
    rest = dropGutter line := by
  have star : isBlank '*' = false := by decide
  cases h with
  | gap before blank =>
    rw [dropGutter, dropWhile_run before (stops_cons star _)]
    exact (if_pos blank).symm
  | star before visible =>
    rw [dropGutter, dropWhile_run before (stops_cons star _)]
    cases rest with
    | nil => rfl
    | cons c rest => exact (if_neg (Bool.eq_false_iff.1 (visible c rfl))).symm
  | none free =>
    unfold dropGutter
    split
    · rename_i starred
      exact absurd (congrArg List.head? starred) free
    · rename_i starred
      exact absurd (congrArg List.head? starred) free
    · rfl

theorem isLineText_iff {line text : List Char} :
    IsLineText line text ↔ text = trimEnd (dropGutter line) := by
  constructor
  · rintro ⟨rest, gutter, rfl⟩
    rw [gutter.eq_dropGutter]
  · rintro rfl
    exact ⟨_, withoutGutter_dropGutter line, rfl⟩

theorem forall₂_isLineText_iff {ls texts : List (List Char)} : List.Forall₂ IsLineText ls texts ↔
    texts = ls.map fun line => trimEnd (dropGutter line) := by
  constructor
  · intro each
    induction each with
    | nil => rfl
    | cons first _ ih => rw [List.map_cons, ih, isLineText_iff.1 first]
  · rintro rfl
    rw [List.forall₂_map_right_iff, List.forall₂_same]
    exact fun line _ => isLineText_iff.2 rfl

/-- A content says one text. -/
theorem isContentText_iff {content text : List Char} :
    IsContentText content text ↔ text = commentText (withoutStar content) := by
  constructor
  · rintro ⟨ls, texts, cut, each, rfl⟩
    rw [forall₂_isLineText_iff.1 each, hasLines_iff.1 cut]
    rfl
  · rintro rfl
    exact ⟨_, _, hasLines_iff.2 rfl, forall₂_isLineText_iff.2 rfl, rfl⟩

theorem WithoutGutter.sublist {line rest : List Char} (h : WithoutGutter line rest) :
    rest.Sublist line := by
  cases h with
  | gap before blank =>
    exact ((List.sublist_cons_self _ _).trans (List.sublist_cons_self _ _)).trans
      (List.sublist_append_right _ _)
  | star before visible => exact (List.sublist_cons_self _ _).trans (List.sublist_append_right _ _)
  | none free => exact List.Sublist.refl _

theorem IsLineText.sublist {line text : List Char} (h : IsLineText line text) :
    text.Sublist line := by
  obtain ⟨rest, gutter, rfl⟩ := h
  obtain ⟨tail, split, -⟩ := dropEnd_append isBlank rest
  have front : (trimEnd rest).Sublist rest := by
    conv_rhs => rw [split]
    exact List.sublist_append_left _ _
  exact front.trans gutter.sublist

theorem sublist_flatten_of_forall₂ {ls texts : List (List Char)}
    (h : List.Forall₂ IsLineText ls texts) : texts.flatten.Sublist ls.flatten := by
  induction h with
  | nil => exact .slnil
  | cons first _ ih =>
    rw [List.flatten_cons, List.flatten_cons]
    exact first.sublist.append ih

theorem withoutStar_sublist (content : List Char) : (withoutStar content).Sublist content := by
  unfold withoutStar
  split
  · exact List.sublist_cons_self _ _
  · exact List.Sublist.refl _

/-- Line feeds aside, what a content says are characters of the content in their order. -/
theorem IsContentText.sublist {content text : List Char} (h : IsContentText content text) :
    (text.filter (· ≠ '\n')).Sublist content := by
  obtain ⟨ls, texts, cut, each, rfl⟩ := h
  have inner := (isInfix_dropEnds isBlank (joinWith '\n' texts)).sublist.filter (· ≠ '\n')
  have lined := (filter_joinWith_sublist '\n' texts).trans (sublist_flatten_of_forall₂ each)
  exact inner.trans (lined.trans (cut.sublist.trans (withoutStar_sublist content)))

/-! ## Marks -/

theorem isTrimmed_blockComment (content : List Char) : IsTrimmed (blockComment content) where
  ne_nil := by simp [blockComment]
  first := stops_cons (by decide) _
  last := by
    rw [blockComment, List.reverse_cons, List.reverse_cons, List.reverse_append]
    exact stops_cons (by decide) _

theorem dropClosing_append (text : List Char) : dropClosing (text ++ ['*', '/']) = text := by
  have mark : "*/".toList = ['*', '/'] := by decide
  have closed : "*/".toList.isSuffixOf (text ++ ['*', '/']) = true := by
    rw [List.isSuffixOf_iff_suffix, mark]
    exact List.suffix_append text _
  rw [dropClosing, if_pos closed]
  simp

theorem dropOpening_blockComment {content : List Char} (some : content ≠ []) :
    dropOpening (blockComment content) = withoutStar content ++ ['*', '/'] := by
  have long : "/**".toList = ['/', '*', '*'] := by decide
  have short : "/*".toList = ['/', '*'] := by decide
  obtain ⟨c, rest, rfl⟩ := List.exists_cons_of_ne_nil some
  unfold dropOpening blockComment
  rw [long, short]
  by_cases star : c = '*'
  · subst star
    simp [withoutStar]
  · simp [star, Ne.symm star, withoutStar]

/-- A comment with a content means what the content says. -/
theorem cleanComment_of_ne_nil {content : List Char} (some : content ≠ []) :
    cleanComment (blockComment content) = someText? (commentText (withoutStar content)) := by
  rw [cleanComment, (isTrimmed_blockComment content).trim_eq_self, dropOpening_blockComment some,
    dropClosing_append]

/-! ## Documentation -/

/-- The place before which the comment of a declaration stands. -/
def commented (wrappers : List String) (p : Place) : Place :=
  (p.parent?.filter fun parent => wrappers.contains parent.kind).getD p

/-- The comment with this content stands right before the declaration. -/
def HasComment (file : ParsedFile) (wrappers : List String) (p : Place) (content : List Char) :
    Prop :=
  ∃ sibling, (commented wrappers p).before.head? = some sibling ∧
    (sibling.kind = "comment" ∨ sibling.kind = "block_comment") ∧
    (file.textOf sibling).toList = blockComment content

theorem docComment?_of_hasComment {file : ParsedFile} {wrappers : List String} {p : Place}
    {content : List Char} (h : HasComment file wrappers p content) :
    docComment? file wrappers p =
      if "/**".toList.isPrefixOf (blockComment content) then cleanComment (blockComment content)
      else none := by
  obtain ⟨sibling, before, kind, text⟩ := h
  obtain ⟨rest, siblings⟩ := List.head?_eq_some_iff.1 before
  unfold commented at siblings
  unfold docComment?
  cases above : p.parent? with
  | none =>
    rw [above, Option.filter_none, Option.getD_none] at siblings
    simp only [siblings, if_pos kind, text]
  | some parent =>
    rw [above, Option.filter_some] at siblings
    split_ifs at siblings with wrapped
    · rw [Option.getD_some] at siblings
      simp only [if_pos wrapped, siblings, if_pos kind, text]
    · rw [Option.getD_none] at siblings
      simp only [if_neg wrapped, siblings, if_pos kind, text]

theorem opensDoc_iff {content : List Char} (filled : content ≠ []) :
    "/**".toList.isPrefixOf (blockComment content) = true ↔ content.head? = some '*' := by
  have mark : "/**".toList = ['/', '*', '*'] := by decide
  obtain ⟨c, rest, rfl⟩ := List.exists_cons_of_ne_nil filled
  rw [mark, List.head?_cons, Option.some_inj, eq_comm (b := '*')]
  simp [blockComment]

/-- A content says one text, line feeds aside of characters of the content.  A comment with a
content gives this text, unless it is empty, and documents a declaration with it if the content
begins with a star.  A comment without content gives a slash. -/
theorem cleanComment_blockComment (content : List Char) :
    (content ≠ [] → (∃ text, IsContentText content text) ∧ ∀ text, IsContentText content text →
      (text.filter (· ≠ '\n')).Sublist content ∧
      cleanComment (blockComment content) = someText? text ∧
      ∀ file wrappers p, HasComment file wrappers p content →
        docComment? file wrappers p = if content.head? = some '*' then someText? text else none) ∧
    (content = [] → cleanComment (blockComment content) = some "/" ∧
      ∀ file wrappers p, HasComment file wrappers p content →
        docComment? file wrappers p = some "/") := by
  constructor
  · intro filled
    refine ⟨⟨_, isContentText_iff.2 rfl⟩, fun text read => ?_⟩
    have cleaned : cleanComment (blockComment content) = someText? text := by
      rw [cleanComment_of_ne_nil filled, isContentText_iff.1 read]
    refine ⟨read.sublist, cleaned, fun file wrappers p has => ?_⟩
    rw [docComment?_of_hasComment has, cleaned]
    simp only [opensDoc_iff filled]
  · rintro rfl
    have slash : cleanComment (blockComment []) = some "/" := by decide
    refine ⟨slash, fun file wrappers p has => ?_⟩
    rw [docComment?_of_hasComment has, slash, if_pos (by decide)]

/-- A class of a file. -/
def plainClass (start : Nat) : Tree :=
  let node (kind : String) (named : Bool) (first last : Nat) (field : Option String) : Tree :=
    .node ⟨kind, named, start + first, start + last, field⟩ []
  let body := Tree.node ⟨"class_body", true, start + 8, start + 10, some "body"⟩
    [node "\x7b" false 8 9 none, node "\x7d" false 9 10 none]
  .node ⟨"class_declaration", true, start, start + 10, none⟩
    [node "class" false 0 5 none, node "identifier" true 6 7 (some "name"), body]

/-- A comment of ASCII characters. -/
def commentTree (comment : List Char) : Tree :=
  .node ⟨"comment", true, 0, comment.length, none⟩ []

/-- A file with a comment and a class behind it. -/
def classBehind (comment : List Char) : ParsedFile :=
  { path := "a.js", language := .javascript, grammar := "javascript", hasError := false,
    source := Utf8.encode (comment ++ " class A \x7b\x7d".toList),
    tree := .node ⟨"program", true, 0, comment.length + 11, none⟩
      [commentTree comment, plainClass (comment.length + 1)] }

/-- The place of the class behind a comment. -/
def classPlace (comment : List Char) : Place :=
  .child (.root (classBehind comment).tree) [commentTree comment] (plainClass (comment.length + 1))

/-- Two lines with gutters. -/
def greeting : List Char := "*\n  *  Hello \n\t*again ".toList

/-- The gutters of two lines are dropped, and the comment without content leaves a slash. -/
theorem cleanComment_blockComment_greeting :
    (greeting ≠ [] ∧
      HasComment (classBehind (blockComment greeting)) []
        (classPlace (blockComment greeting)) greeting ∧
      ∃ text, IsContentText greeting text ∧
        docComment? (classBehind (blockComment greeting)) [] (classPlace (blockComment greeting)) =
          someText? text ∧ someText? text = some "Hello\nagain") ∧
    HasComment (classBehind (blockComment [])) [] (classPlace (blockComment [])) [] ∧
      docComment? (classBehind (blockComment [])) [] (classPlace (blockComment [])) = some "/" := by
  have greeted : HasComment (classBehind (blockComment greeting)) []
      (classPlace (blockComment greeting)) greeting := ⟨_, rfl, Or.inl rfl, by decide +kernel⟩
  have bare : HasComment (classBehind (blockComment [])) [] (classPlace (blockComment [])) [] :=
    ⟨_, rfl, Or.inl rfl, by decide +kernel⟩
  obtain ⟨⟨text, read⟩, all⟩ := (cleanComment_blockComment greeting).1 (by decide)
  obtain ⟨-, cleaned, documents⟩ := all text read
  have hello : cleanComment (blockComment greeting) = some "Hello\nagain" := by decide +kernel
  refine ⟨⟨by decide, greeted, text, read, documents _ _ _ greeted, cleaned.symm.trans hello⟩,
    bare, ?_⟩
  exact ((cleanComment_blockComment []).2 rfl).2 _ _ _ bare

/-- Nothing is said by a comment without content, but a slash documents the class behind it. -/
theorem cleanComment_bare :
    ¬ "*/".toList <:+: [] ∧ (∀ text, IsContentText [] text ↔ text = []) ∧ someText? [] = none ∧
      cleanComment (blockComment []) = some "/" ∧
      ∃ d ∈ Reader.javascript.runGuarded (classBehind (blockComment [])),
        d.traits.doc = some "/" := by
  refine ⟨by decide, fun text => ?_, rfl, by decide, by decide +kernel⟩
  exact isContentText_iff

end CodeGraph
