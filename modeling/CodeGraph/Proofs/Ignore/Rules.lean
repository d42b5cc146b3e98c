import CodeGraph.Ignore.Rules
import CodeGraph.Ignore.Sources
import CodeGraph.Proofs.Fallible
import CodeGraph.Proofs.Files.Paths

/-!
# The rule that decides

A path is rejected if the last rule that hits it is not negated.  Where a matcher follows this rule
(`Matcher.DecidedBy`), the path of an entry is tried in two spellings, bare and with a slash at its
end, and the entry is ignored if it is rejected in one of them (`ignores_iff_rejects`).  The library
`gitignore` follows it (`decidedBy_excludes`), and it negates just the patterns with an exclamation
mark in front (`plainUnmarked_gitignore`).
-/

namespace CodeGraph.Ignore

open CodeGraph.Files CodeGraph.Json CodeGraph.Text

namespace Rules

variable {rules : Rules} {rule : Rule} {path : List Char} {names : Location}

/-! ## The last hit -/

/-- The rule hits the path, and no rule behind it does. -/
def LastHit (rules : Rules) (path : List Char) (rule : Rule) : Prop :=
  ∃ earlier later, rules = earlier ++ rule :: later ∧ rule.hits path = true ∧
    ∀ other ∈ later, other.hits path = false

@[simp]
theorem decisive?_eq_some_iff : rules.decisive? path = some rule ↔ rules.LastHit path rule := by
  rw [decisive?, List.find?_eq_some_iff_append]
  constructor
  · rintro ⟨hits, later, earlier, eq, none⟩
    refine ⟨earlier.reverse, later.reverse, ?_, hits, fun other h => ?_⟩
    · rw [← List.reverse_reverse rules, eq]
      simp
    · simpa using none other (List.mem_reverse.1 h)
  · rintro ⟨earlier, later, rfl, hits, none⟩
    refine ⟨hits, later.reverse, earlier.reverse, by simp, fun other h => ?_⟩
    rw [none other (List.mem_reverse.1 h)]
    rfl

/-- The last rule that hits the path excludes it. -/
def Rejects (rules : Rules) (path : List Char) : Prop :=
  ∃ rule, rules.LastHit path rule ∧ rule.negated = false

instance (rules : Rules) (path : List Char) : Decidable (rules.Rejects path) :=
  decidable_of_iff (∃ rule, rules.decisive? path = some rule ∧ rule.negated = false)
    (exists_congr fun _ => and_congr_left fun _ => decisive?_eq_some_iff)

/-! ## Rules without negation -/

/-- Where no rule is negated, a path that any of them hits is rejected. -/
theorem rejects_iff_of_plain (plain : ∀ rule ∈ rules, rule.negated = false) :
    rules.Rejects path ↔ ∃ rule ∈ rules, rule.hits path = true := by
  constructor
  · rintro ⟨rule, ⟨earlier, later, rfl, hits, -⟩, -⟩
    exact ⟨rule, by simp, hits⟩
  · rintro ⟨rule, h, hits⟩
    have found : (rules.decisive? path).isSome = true := by
      rw [decisive?, List.find?_isSome]
      exact ⟨rule, List.mem_reverse.2 h, hits⟩
    obtain ⟨last, eq⟩ := Option.isSome_iff_exists.1 found
    have known := List.mem_reverse.1 (List.mem_of_find?_eq_some eq)
    exact ⟨last, decisive?_eq_some_iff.1 eq, plain last known⟩

end Rules

/-! ## Matchers that follow their rules -/

/-- The last rule that hits a path decides whether the matcher excludes the path. -/
def Matcher.DecidedBy (matcher : Matcher) (rules : Rules) : Prop :=
  ∀ path, matcher path = true ↔ rules.Rejects path

/-- An entry is ignored exactly if its path is rejected in one of its two spellings. -/
theorem Matcher.DecidedBy.ignores_iff_rejects {matcher : Matcher} {rules : Rules} {names : Location}
    (decided : matcher.DecidedBy rules) (named : ∀ name ∈ names, Path.IsName name.toList)
    (some : names ≠ []) (isFolder : Bool) :
    matcher.ignores (relativeText names) isFolder = true ↔
      rules.Rejects (relativeText names) ∨ rules.Rejects (relativeText names ++ ['/']) := by
  rw [ignores_relativeText named some, Bool.or_eq_true, decided, decided]

theorem decidedBy_excludes (rules : Rules) : rules.excludes.DecidedBy rules := by
  intro path
  simp only [Rules.excludes, Rules.Rejects, ← Rules.decisive?_eq_some_iff]
  cases rules.decisive? path with
  | none => simp
  | some rule => simp

/-! ## Marks of negation -/

/-- A pattern that does not begin with an exclamation mark has a rule that is not negated. -/
def PatternLibrary.PlainUnmarked (library : PatternLibrary) : Prop :=
  ∀ source rule, source.toList.head? ≠ some '!' → library.rule source = .ok (some rule) →
    rule.negated = false

/-- Patterns that do not begin with an exclamation mark have rules that are not negated. -/
theorem PatternLibrary.PlainUnmarked.negated {library : PatternLibrary}
    (unmarked : library.PlainUnmarked) {patterns : List String} {rules : Rules}
    (plain : ∀ pattern ∈ patterns, pattern.toList.head? ≠ some '!')
    (valid : library.rulesOf (patterns.map Value.text) = .ok rules) :
    ∀ rule ∈ rules, rule.negated = false := by
  induction patterns generalizing rules with
  | nil =>
    cases valid
    simp
  | cons pattern rest ih =>
    obtain ⟨first, later⟩ := List.forall_mem_cons.1 plain
    rw [List.map_cons, rulesOf] at valid
    split at valid
    · exact ih later valid
    · split at valid
      · cases valid
      · next read =>
        obtain ⟨others, remaining, rfl⟩ := map_eq_ok.1 valid
        intro rule h
        rcases List.mem_append.1 h with here | h
        · obtain rfl := Option.mem_toList.1 here
          exact unmarked pattern rule first read
        · exact ih later remaining rule h

/-- What is left of a text without the blanks at its end is its beginning. -/
theorem Rule.exists_trimmed_append (text : List Char) :
    ∃ rest, text = Rule.trimmed text ++ rest := by
  rw [Rule.trimmed]
  split
  · exact ⟨[], by simp⟩
  · obtain ⟨rest, eq, -⟩ := dropEnd_append isBlank text
    exact ⟨rest, eq⟩

/-- The rule of a text that does not begin with an exclamation mark is not negated. -/
theorem Rule.negated_of_read {source : String} {negated : Bool} {pattern : PathPattern}
    (plain : source.toList.head? ≠ some '!')
    (h : Rule.read source = .ok (some (negated, pattern))) : negated = false := by
  obtain ⟨rest, whole⟩ := exists_trimmed_append source.toList
  rw [Rule.read] at h
  split at h
  · cases h
  · cases h
  · next text eq =>
    rw [eq] at whole
    rw [whole] at plain
    exact absurd rfl plain
  · obtain ⟨read, -, same⟩ := map_eq_ok.1 h
    cases same
    rfl

theorem plainUnmarked_gitignore : gitignore.PlainUnmarked := by
  intro source rule plain h
  obtain ⟨said, read, same⟩ := map_eq_ok.1 (h : Rule.ofText source = .ok (some rule))
  obtain ⟨⟨negated, pattern⟩, rfl, rfl⟩ := Option.map_eq_some_iff.1 same
  exact Rule.negated_of_read plain read

end CodeGraph.Ignore
