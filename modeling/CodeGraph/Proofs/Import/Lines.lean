import CodeGraph.Import.Statement
import CodeGraph.Proofs.Text.Pieces

/-!
# The lines of import statements

Every piece of a phrase leaves an end of the text that it reads, and so does every form of import
statement (`ReadsOn`).  A search for such a phrase counts every line feed once, so the line of a
statement is one of the lines of the text (`line_of_mem_scan`).
-/

namespace CodeGraph.Import

open CodeGraph.Text

variable {text rest found : List Char}

/-! ## Pieces -/

theorem word?_suffix {word : String} (h : word? word text = some rest) : rest <:+ text := by
  unfold word? at h
  split_ifs at h
  cases h
  exact List.drop_suffix _ _

theorem blanks?_suffix (h : blanks? text = some rest) : rest <:+ text := by
  unfold blanks? at h
  split at h
  · split_ifs at h
    cases h
    exact (List.dropWhile_suffix _).trans (List.suffix_cons _ _)
  · cases h

theorem skipBlanks_suffix (text : List Char) : skipBlanks text <:+ text := List.dropWhile_suffix _

theorem run?_suffix {p : Char → Bool} (h : run? p text = some (found, rest)) : rest <:+ text := by
  unfold run? at h
  split at h
  · cases h
  · cases h
    exact List.dropWhile_suffix _

theorem quote?_suffix (h : quote? text = some rest) : rest <:+ text := by
  unfold quote? at h
  split at h
  · split_ifs at h
    cases h
    exact List.suffix_cons _ _
  · cases h

theorem quoted?_suffix (h : quoted? text = some (found, rest)) : rest <:+ text := by
  unfold quoted? at h
  simp only [Option.bind_eq_bind, Option.bind_eq_some_iff, Option.pure_def, Option.some.injEq,
    Prod.mk.injEq] at h
  obtain ⟨inside, opened, ⟨name, behind⟩, read, after, closed, -, rfl⟩ := h
  exact (quote?_suffix closed).trans ((run?_suffix read).trans (quote?_suffix opened))

theorem braced?_suffix (h : braced? text = some (found, rest)) : rest <:+ text := by
  unfold braced? at h
  simp only [Option.bind_eq_bind, Option.bind_eq_some_iff, Option.pure_def, Option.some.injEq,
    Prod.mk.injEq] at h
  obtain ⟨inside, opened, ⟨names, behind⟩, read, after, closed, -, rfl⟩ := h
  exact (word?_suffix closed).trans ((run?_suffix read).trans (word?_suffix opened))

theorem nameList?_suffix (h : nameList? text = some (found, rest)) : rest <:+ text := by
  unfold nameList? at h
  have split := List.takeWhile_append_dropWhile (p := isBlank) (l := text)
  generalize text.takeWhile isBlank = gap at h split
  generalize text.dropWhile isBlank = later at h split
  dsimp only at h
  split at h
  · cases h
  · rename_i first more
    have behind : later <:+ text := ⟨_, split⟩
    split at h
    · rename_i read
      cases h
      exact (run?_suffix read).trans behind
    · split at h
      · cases h
      · cases h
        -- the line feeds at the end of the gap are put back, and they look the same backwards
        have feeds : (more.reverse.takeWhile (· = '\n')).reverse =
            more.reverse.takeWhile (· = '\n') := by
          have same : ∀ c ∈ more.reverse.takeWhile (· = '\n'), c = '\n' := fun c hc =>
            of_decide_eq_true (List.all_eq_true.1 List.all_takeWhile c hc)
          rw [List.eq_replicate_of_mem same, List.reverse_replicate]
        have ends : more.reverse.takeWhile (· = '\n') <:+ more := by
          rw [← feeds, ← List.reverse_prefix, List.reverse_reverse]
          exact List.takeWhile_prefix _
        obtain ⟨front, eq⟩ := ends
        refine ⟨first :: front, ?_⟩
        rw [← List.append_assoc, List.cons_append, eq, split]

theorem upToSemicolon?_suffix (h : upToSemicolon? text = some (found, rest)) : rest <:+ text := by
  unfold upToSemicolon? at h
  dsimp only at h
  split at h
  · cases h
  · split at h
    · rename_i read
      obtain ⟨after, closed, same⟩ := Option.map_eq_some_iff.1 h
      cases same
      exact (word?_suffix closed).trans ((run?_suffix read).trans (List.dropWhile_suffix _))
    · split at h
      · obtain ⟨after, closed, same⟩ := Option.map_eq_some_iff.1 h
        cases same
        exact (word?_suffix closed).trans (List.dropWhile_suffix _)
      · cases h

theorem moreNames_suffix (text : List Char) : (moreNames text).2 <:+ text := by
  unfold moreNames
  split
  · rename_i names behind read
    obtain ⟨after, comma, braces⟩ := Option.bind_eq_some_iff.1 read
    exact (braced?_suffix braces).trans ((skipBlanks_suffix _).trans
      ((word?_suffix comma).trans (skipBlanks_suffix _)))
  · exact List.suffix_refl _

theorem binding?_suffix {b : Binding} (h : binding? text = some (b, rest)) : rest <:+ text := by
  unfold binding? at h
  split at h
  · rename_i braces
    cases h
    exact braced?_suffix braces
  · obtain ⟨⟨name, behind⟩, read, same⟩ := Option.map_eq_some_iff.1 h
    cases same
    exact (moreNames_suffix _).trans (run?_suffix read)

theorem declarator?_suffix (h : declarator? text = some rest) : rest <:+ text := by
  unfold declarator? at h
  rcases Option.or_eq_some_iff.1 h with h | ⟨-, h⟩
  · rcases Option.or_eq_some_iff.1 h with h | ⟨-, h⟩
    · exact word?_suffix h
    · exact word?_suffix h
  · exact word?_suffix h

theorem target?_suffix {b : Binding} (h : target? text = some (b, rest)) : rest <:+ text := by
  unfold target? at h
  split at h
  · rename_i braces
    cases h
    exact braced?_suffix braces
  · obtain ⟨⟨name, behind⟩, read, same⟩ := Option.map_eq_some_iff.1 h
    cases same
    exact run?_suffix read

/-! ## Forms -/

/-- Behind the phrase an end of the text is left. -/
def ReadsOn {α : Type} (phrase : Phrase α) : Prop :=
  ∀ lineStart text said rest, phrase lineStart text = some (said, rest) → rest <:+ text

theorem readsOn_fromImport : ReadsOn fromImport := by
  intro lineStart text said rest h
  unfold fromImport at h
  simp only [Option.bind_eq_bind, Option.bind_eq_some_iff, Option.pure_def, Option.some.injEq,
    Prod.mk.injEq] at h
  obtain ⟨a, ha, b, hb, ⟨source, c⟩, hc, d, hd, e, he, ⟨names, f⟩, hf, -, rfl⟩ := h
  have module := (run?_suffix hc).trans ((blanks?_suffix hb).trans (word?_suffix ha))
  exact (nameList?_suffix hf).trans ((word?_suffix he).trans ((blanks?_suffix hd).trans module))

theorem readsOn_plainImport : ReadsOn plainImport := by
  intro lineStart text said rest h
  unfold plainImport at h
  split_ifs at h
  simp only [Option.bind_eq_bind, Option.bind_eq_some_iff, Option.pure_def, Option.some.injEq,
    Prod.mk.injEq] at h
  obtain ⟨a, ha, b, hb, ⟨source, c⟩, hc, -, rfl⟩ := h
  exact (run?_suffix hc).trans ((blanks?_suffix hb).trans (word?_suffix ha))

theorem readsOn_javaImport : ReadsOn javaImport := by
  intro lineStart text said rest h
  unfold javaImport at h
  simp only [Option.bind_eq_bind, Option.bind_eq_some_iff, Option.pure_def, Option.some.injEq,
    Prod.mk.injEq] at h
  obtain ⟨a, ha, ⟨found, b⟩, hb, -, rfl⟩ := h
  refine List.IsSuffix.trans ?_ (word?_suffix ha)
  rcases Option.or_eq_some_iff.1 hb with static | ⟨-, plain⟩
  · simp only [Option.bind_eq_some_iff] at static
    obtain ⟨c, hc, d, hd, he⟩ := static
    exact (upToSemicolon?_suffix he).trans ((word?_suffix hd).trans (blanks?_suffix hc))
  · exact upToSemicolon?_suffix plain

theorem readsOn_moduleImport : ReadsOn moduleImport := by
  intro lineStart text said rest h
  unfold moduleImport at h
  simp only [Option.bind_eq_bind, Option.bind_eq_some_iff, Option.pure_def, Option.some.injEq,
    Prod.mk.injEq] at h
  obtain ⟨a, ha, b, hb, ⟨bound, c⟩, hc, d, hd, e, he, f, hf, ⟨source, g⟩, hg, -, rfl⟩ := h
  have bound := (binding?_suffix hc).trans ((blanks?_suffix hb).trans (word?_suffix ha))
  have source := (quoted?_suffix hg).trans ((blanks?_suffix hf).trans (word?_suffix he))
  exact source.trans ((blanks?_suffix hd).trans bound)

theorem readsOn_requireCall : ReadsOn requireCall := by
  intro lineStart text said rest h
  unfold requireCall at h
  simp only [Option.bind_eq_bind, Option.bind_eq_some_iff, Option.pure_def, Option.some.injEq,
    Prod.mk.injEq] at h
  obtain ⟨a, ha, b, hb, ⟨bound, c⟩, hc, d, hd, e, he, f, hf, ⟨source, g⟩, hg, i, hi, -, rfl⟩ := h
  have bound := (target?_suffix hc).trans ((blanks?_suffix hb).trans (declarator?_suffix ha))
  have equals := ((word?_suffix hd).trans (skipBlanks_suffix _)).trans bound
  have called := ((word?_suffix he).trans (skipBlanks_suffix _)).trans equals
  have opened := ((word?_suffix hf).trans (skipBlanks_suffix _)).trans called
  have source := ((quoted?_suffix hg).trans (skipBlanks_suffix _)).trans opened
  exact ((word?_suffix hi).trans (skipBlanks_suffix _)).trans source

/-! ## Search -/

/-- The line behind a character: the line feeds that are left are those behind it. -/
theorem line_step (line : Nat) (c : Char) (rest : List Char) :
    line ≤ (if c = '\n' then line + 1 else line) ∧
      (if c = '\n' then line + 1 else line) + rest.count '\n' = line + (c :: rest).count '\n' := by
  by_cases h : c = '\n'
  · rw [if_pos h, h, List.count_cons_self]
    omega
  · rw [if_neg h, List.count_cons_of_ne h]
    omega

theorem line_of_mem_findFrom {α : Type} {phrase : Phrase α} (on : ReadsOn phrase) {said : α}
    {lineStart : Bool} {line n : Nat} (h : (said, n) ∈ findFrom phrase lineStart line text) :
    line ≤ n ∧ n ≤ line + text.count '\n' := by
  induction lineStart, line, text using findFrom.induct phrase with
  | case1 lineStart line => simp [findFrom] at h
  | case2 lineStart line c rest found after answer shorter read ih =>
    rw [findFrom, answer] at h
    simp only [shorter, dif_pos] at h
    -- the search goes on behind the phrase, with the line feeds in it counted
    obtain ⟨front, whole⟩ := on _ _ _ _ answer
    have counted : (c :: rest).count '\n' = read.count '\n' + after.count '\n' := by
      have length : (c :: rest).length - after.length = front.length := by
        rw [← whole, List.length_append]
        omega
      have taken : read = front := by
        rw [show read = (c :: rest).take ((c :: rest).length - after.length) from rfl, length,
          ← whole, List.take_left]
      rw [← whole, List.count_append, taken]
    rcases List.mem_cons.1 h with same | later
    · cases same
      omega
    · have := ih later
      omega
  | case3 lineStart line c rest found after answer longer ih =>
    rw [findFrom, answer] at h
    simp only [longer, dif_neg, not_false_iff] at h
    obtain ⟨later, counted⟩ := line_step line c rest
    have found := ih h
    rw [dite_eq_ite] at found
    omega
  | case4 lineStart line c rest answer ih =>
    rw [findFrom, answer] at h
    obtain ⟨later, counted⟩ := line_step line c rest
    have found := ih h
    rw [dite_eq_ite] at found
    omega

theorem line_of_mem_statements {phrase : Phrase Clause} (on : ReadsOn phrase)
    {statement : Statement} (h : statement ∈ statements phrase text) :
    1 ≤ statement.line ∧ statement.line ≤ (cutAt '\n' text).length := by
  obtain ⟨⟨clause, line⟩, mem, rfl⟩ := List.mem_map.1 h
  have := line_of_mem_findFrom on mem
  rw [length_cutAt]
  dsimp only
  omega

/-- A statement starts on a line of the text. -/
theorem line_of_mem_scan {language : Option Language} {statement : Statement}
    (h : statement ∈ scan language text) :
    1 ≤ statement.line ∧ statement.line ≤ (cutAt '\n' text).length := by
  have script (h : statement ∈ statements moduleImport text ++ statements requireCall text) :
      1 ≤ statement.line ∧ statement.line ≤ (cutAt '\n' text).length := by
    rcases List.mem_append.1 h with h | h
    · exact line_of_mem_statements readsOn_moduleImport h
    · exact line_of_mem_statements readsOn_requireCall h
  match language with
  | none => cases h
  | some .python =>
    rcases List.mem_append.1 h with h | h
    · exact line_of_mem_statements readsOn_fromImport h
    · exact line_of_mem_statements readsOn_plainImport h
  | some .java => exact line_of_mem_statements readsOn_javaImport h
  | some .javascript => exact script h
  | some .typescript => exact script h

end CodeGraph.Import
