import CodeGraph.Proofs.Link.Passes
import CodeGraph.Proofs.Text.Pieces

/-!
# Which declaration an import means

Among the declarations of a name an import means the first one whose file matches what the import
says, or the one that stands for them all if there is none (`find?_or_representative?`).  A file
matches a dotted module if its path ends with the segments of the module (`matchesModule_iff`), so
absolute imports of Python and Java go by segments (`importTarget_absolute`).  Relative imports
compare loosely: a file matches if its path has the resolved path as a part or ends with it
(`matchesPath_iff`).  So the file that a relative import names is taken unless one that merely
resembles it comes first (`importTarget_relative`).
-/

namespace CodeGraph

open CodeGraph.Text

/-! ## First items -/

section First

variable {α : Type} {p : α → Prop} {q : α → Bool} {xs : List α} {x y : α}

/-- The item is the first one of the list with the property. -/
def IsFirst (p : α → Prop) (xs : List α) (x : α) : Prop :=
  ∃ before after, xs = before ++ x :: after ∧ p x ∧ ∀ y ∈ before, ¬ p y

theorem IsFirst.mem (h : IsFirst p xs x) : x ∈ xs := by
  obtain ⟨before, after, rfl, -, -⟩ := h
  simp

theorem IsFirst.holds (h : IsFirst p xs x) : p x := by
  obtain ⟨before, after, -, holds, -⟩ := h
  exact holds

theorem find?_eq_some_iff_isFirst (same : ∀ y, q y = true ↔ p y) :
    xs.find? q = some x ↔ IsFirst p xs x := by
  rw [List.find?_eq_some_iff_append, same]
  constructor
  · rintro ⟨holds, before, after, rfl, none⟩
    refine ⟨before, after, rfl, holds, fun y hy => ?_⟩
    rw [← same]
    simpa using none y hy
  · rintro ⟨before, after, rfl, holds, none⟩
    refine ⟨holds, before, after, rfl, fun y hy => ?_⟩
    have other := none y hy
    rw [← same] at other
    simpa using other

theorem find?_eq_none_iff_forall (same : ∀ y, q y = true ↔ p y) :
    xs.find? q = none ↔ ∀ y ∈ xs, ¬ p y := by
  rw [List.find?_eq_none]
  exact forall₂_congr fun y _ => not_congr (same y)

/-- The first item is not behind one that has the property. -/
theorem IsFirst.of_append {before after : List α} (h : IsFirst p (before ++ x :: after) y)
    (hx : p x) : (∀ z ∈ before, ¬ p z) ∧ y = x ∨ IsFirst p before y := by
  obtain ⟨front, back, eq, hy, none⟩ := h
  rcases List.append_eq_append_iff.1 eq with ⟨more, rfl, rest⟩ | ⟨more, rfl, rest⟩
  · cases more with
    | nil =>
      left
      exact ⟨fun z hz => none z (List.mem_append_left _ hz), (List.cons.inj rest).1.symm⟩
    | cons z more =>
      obtain ⟨rfl, -⟩ := List.cons.inj rest
      exact absurd hx (none x (by simp))
  · cases more with
    | nil =>
      left
      rw [List.append_nil]
      exact ⟨none, (List.cons.inj rest).1⟩
    | cons z more =>
      obtain ⟨rfl, -⟩ := List.cons.inj rest
      exact Or.inr ⟨front, more, rfl, hy, none⟩

theorem IsFirst.unique (hx : IsFirst p xs x) (hy : IsFirst p xs y) : x = y := by
  obtain ⟨before, after, rfl, holds, none⟩ := hx
  rcases hy.of_append holds with ⟨-, same⟩ | inside
  · exact same.symm
  · exact absurd inside.holds (none y inside.mem)

end First

/-! ## Files that match -/

namespace Import

variable {file path resolved : List Char}

/-- The path of the file is the resolved one, extensions aside. -/
def Names (resolved file : List Char) : Prop := withoutExtension file = withoutExtension resolved

/-- The path of the file has the resolved one as a part, or ends with it, extensions aside. -/
def Resembles (resolved file : List Char) : Prop :=
  resolved <:+: file ∨ withoutExtension resolved <:+ withoutExtension file

instance (resolved file : List Char) : Decidable (Names resolved file) :=
  inferInstanceAs (Decidable (_ = _))

instance (resolved file : List Char) : Decidable (Resembles resolved file) :=
  inferInstanceAs (Decidable (_ ∨ _))

theorem Names.resembles (h : Names resolved file) : Resembles resolved file := by
  have same : withoutExtension file = withoutExtension resolved := h
  exact Or.inr (same ▸ List.suffix_refl _)

theorem matchesModule_iff (some : path ≠ []) :
    matchesModule file path = true ↔ cutAt '/' path <:+ cutAt '/' (withoutExtension file) := by
  rw [cutAt_suffix_cutAt_iff, matchesModule]
  simp [some]

theorem matchesPath_iff (some : resolved ≠ []) :
    matchesPath file resolved = true ↔ Resembles resolved file := by
  have loose :
      matchesPath file resolved = true ↔ Names resolved file ∨ Resembles resolved file := by
    simp [matchesPath, Names, Resembles, containsPart_iff, some, or_assoc]
  rw [loose]
  exact or_iff_right_of_imp Names.resembles

@[simp]
theorem matchesPath_nil (file : List Char) : matchesPath file [] = false := rfl

end Import

/-! ## Choosing -/

/-- A function with the name `helper` in a file. -/
def helperIn (path : String) : Declaration :=
  ⟨"helper", .function, .typescript, path, ⟨⟨1, 0⟩, ⟨1, 9⟩⟩, {}, none⟩

section Choice

variable {candidates : List Declaration} {t : Declaration} {fromFile source path : List Char}
  {language : Option Language}

/-- The candidate that stands for all: the first one without an owner, or else the first one. -/
def StandsForAll (candidates : List Declaration) (t : Declaration) : Prop :=
  IsFirst (fun c => c.owner = none) candidates t ∨
    (∀ c ∈ candidates, c.owner ≠ none) ∧ candidates.head? = some t

/-- The first candidate with the property, or the one that stands for all if none has it. -/
def IsChosen (p : Declaration → Prop) (candidates : List Declaration) (t : Declaration) : Prop :=
  IsFirst p candidates t ∨ (∀ c ∈ candidates, ¬ p c) ∧ StandsForAll candidates t

theorem representative?_eq_some_iff :
    representative? candidates = some t ↔ StandsForAll candidates t := by
  have same (c : Declaration) : decide (c.owner = none) = true ↔ c.owner = none :=
    decide_eq_true_iff
  unfold representative? StandsForAll
  rw [Option.or_eq_some_iff, find?_eq_some_iff_isFirst same, find?_eq_none_iff_forall same]

theorem find?_or_representative? {p : Declaration → Prop} {q : Declaration → Bool}
    (same : ∀ c, q c = true ↔ p c) :
    (candidates.find? q).or (representative? candidates) = some t ↔ IsChosen p candidates t := by
  rw [Option.or_eq_some_iff, find?_eq_some_iff_isFirst same, find?_eq_none_iff_forall same,
    representative?_eq_some_iff]
  rfl

theorem importTarget_of_relative (h : Import.relativePath? language source = some path) :
    importTarget candidates fromFile source language =
      (candidates.find? fun c =>
        Import.matchesPath c.path.toList (Import.resolveRelative fromFile path)).or
        (representative? candidates) := by
  have dot : source.head? = some '.' := by
    by_contra absolute
    simp [Import.relativePath?, absolute] at h
  have none : Import.dottedPath? language source = none := by
    simp [Import.dottedPath?, dot]
  unfold importTarget
  rw [h, none]
  rfl

theorem importTarget_of_dotted (h : Import.dottedPath? language source = some path) :
    importTarget candidates fromFile source language =
      (candidates.find? fun c => Import.matchesModule c.path.toList path).or
        (representative? candidates) := by
  have dot : source.head? ≠ some '.' := by
    intro relative
    simp [Import.dottedPath?, relative] at h
  have none : Import.relativePath? language source = none := by
    simp [Import.relativePath?, dot]
  unfold importTarget
  rw [h, none]
  rfl

theorem exists_or_representative? (any : candidates ≠ []) (q : Declaration → Bool) :
    ∃ t, (candidates.find? q).or (representative? candidates) = some t := by
  obtain ⟨c, rest, rfl⟩ := List.exists_cons_of_ne_nil any
  rw [← Option.isSome_iff_exists, Option.isSome_or, representative?, Option.isSome_or]
  simp

theorem exists_standsForAll (any : candidates ≠ []) : ∃ t, StandsForAll candidates t := by
  obtain ⟨t, found⟩ := exists_or_representative? any fun _ => false
  have none : (candidates.find? fun _ => false) = none := by simp
  rw [none] at found
  exact ⟨t, representative?_eq_some_iff.1 found⟩

variable (fromFile source language) in
theorem exists_importTarget (any : candidates ≠ []) :
    ∃ t, importTarget candidates fromFile source language = some t := by
  obtain ⟨c, rest, rfl⟩ := List.exists_cons_of_ne_nil any
  rw [← Option.isSome_iff_exists]
  simp [importTarget]

/-- A file matches a module exactly if the segments of its path, without the extension, end with
those of the module.  So an absolute import of Python or Java means the first candidate whose file
ends with its segments, or else the first one without an owner, or else the first one. -/
theorem importTarget_absolute :
    (∀ file path, path ≠ [] → (Import.matchesModule file path = true ↔
        cutAt '/' path <:+ cutAt '/' (Import.withoutExtension file))) ∧
      ∀ (candidates : List Declaration) (fromFile source : List Char) (language : Language),
        candidates ≠ [] → source ≠ [] → source.head? ≠ some '.' →
        language = .python ∨ language = .java →
        ∃ t, importTarget candidates fromFile source (some language) = some t ∧
          IsChosen (fun c => cutAt '/' (replaceChar '.' '/' source) <:+
            cutAt '/' (Import.withoutExtension c.path.toList)) candidates t := by
  refine ⟨fun file path some => Import.matchesModule_iff some, ?_⟩
  intro candidates fromFile source language any some absolute known
  have dotted : Import.dottedPath? language source = replaceChar '.' '/' source := by
    simp [Import.dottedPath?, absolute, known]
  have filled : replaceChar '.' '/' source ≠ [] := by
    simpa [replaceChar] using some
  rw [importTarget_of_dotted dotted]
  obtain ⟨t, found⟩ := exists_or_representative? any
    fun c => Import.matchesModule c.path.toList (replaceChar '.' '/' source)
  refine ⟨t, found, ?_⟩
  exact (find?_or_representative? fun c => Import.matchesModule_iff filled).1 found

/-- A file of another package is passed over although its path ends with the same characters. -/
theorem importTarget_absolute_passes_over :
    Import.matchesModule "src/pkg/mod.py".toList "pkg/mod".toList = true ∧
      importTarget [helperIn "src/xpkg/mod.py", helperIn "src/pkg/mod.py"] "app.py".toList
          "pkg.mod".toList (some .python) = some (helperIn "src/pkg/mod.py") ∧
        IsChosen (fun c => cutAt '/' (replaceChar '.' '/' "pkg.mod".toList) <:+
            cutAt '/' (Import.withoutExtension c.path.toList))
          [helperIn "src/xpkg/mod.py", helperIn "src/pkg/mod.py"] (helperIn "src/pkg/mod.py") := by
  obtain ⟨segments, choice⟩ := importTarget_absolute
  have ends : Import.matchesModule "src/pkg/mod.py".toList "pkg/mod".toList = true :=
    (segments _ _ (by decide)).2 (by decide)
  obtain ⟨t, target, chosen⟩ :=
    choice [helperIn "src/xpkg/mod.py", helperIn "src/pkg/mod.py"] "app.py".toList
      "pkg.mod".toList .python (by decide) (by decide) (by decide) (Or.inl rfl)
  have taken : importTarget [helperIn "src/xpkg/mod.py", helperIn "src/pkg/mod.py"] "app.py".toList
      "pkg.mod".toList (some .python) = some (helperIn "src/pkg/mod.py") := by decide
  obtain rfl : t = helperIn "src/pkg/mod.py" := Option.some.inj (target.symm.trans taken)
  exact ⟨ends, taken, chosen⟩

/-- A relative import leads to a path.  If it leads to the top folder itself, it means the candidate
that stands for all.  Otherwise a candidate whose file is the one that it names is taken, unless
candidates whose files resemble it stand before: then the first of these. -/
theorem importTarget_relative (candidates : List Declaration) (fromFile source : List Char)
    (language : Option Language) (any : candidates ≠ []) (dot : source.head? = some '.') :
    ∃ path t, Import.relativePath? language source = some path ∧
      importTarget candidates fromFile source language = some t ∧
      (Import.resolveRelative fromFile path = [] → StandsForAll candidates t) ∧
      (Import.resolveRelative fromFile path ≠ [] →
        ∀ before named after, candidates = before ++ named :: after →
          Import.Names (Import.resolveRelative fromFile path) named.path.toList →
          (∀ c ∈ before,
              ¬ Import.Resembles (Import.resolveRelative fromFile path) c.path.toList) ∧ t = named ∨
            IsFirst (fun c => Import.Resembles (Import.resolveRelative fromFile path) c.path.toList)
              before t) := by
  obtain ⟨path, relative⟩ : ∃ path, Import.relativePath? language source = some path := by
    simp [Import.relativePath?, dot]
  obtain ⟨t, found⟩ := exists_or_representative? any
    fun c => Import.matchesPath c.path.toList (Import.resolveRelative fromFile path)
  refine ⟨path, t, relative, ?_, ?_, ?_⟩
  · rw [importTarget_of_relative relative, found]
  · intro top
    rw [top] at found
    have none : candidates.find? (fun c => Import.matchesPath c.path.toList []) = none := by
      simp [Import.matchesPath_nil]
    rw [none] at found
    exact representative?_eq_some_iff.1 found
  · rintro some before named after rfl names
    have chosen := (find?_or_representative? fun c => Import.matchesPath_iff some).1 found
    rcases chosen with first | ⟨none, -⟩
    · exact first.of_append names.resembles
    · exact absurd names.resembles (none named (by simp))

/-- The file that is named is taken, and not one behind it that has its path as a part. -/
theorem importTarget_relative_first :
    ([helperIn "src/a.ts", helperIn "src/ab.ts"] ≠ [] ∧ "./a".toList.head? = some '.') ∧
      importTarget [helperIn "src/a.ts", helperIn "src/ab.ts"] "src/b.ts".toList "./a".toList
        (some .typescript) = some (helperIn "src/a.ts") := by
  have any : [helperIn "src/a.ts", helperIn "src/ab.ts"] ≠ [] := by decide
  have dot : "./a".toList.head? = some '.' := by decide
  obtain ⟨path, t, relative, target, -, choice⟩ :=
    importTarget_relative [helperIn "src/a.ts", helperIn "src/ab.ts"] "src/b.ts".toList
      "./a".toList (some .typescript) any dot
  obtain rfl : "./a".toList = path := Option.some.inj relative
  refine ⟨⟨any, dot⟩, target.trans (congrArg some ?_)⟩
  rcases choice (by decide) [] (helperIn "src/a.ts") [helperIn "src/ab.ts"] rfl (by decide) with
    ⟨-, named⟩ | ⟨before, after, empty, -⟩
  · exact named
  · simp at empty

/-- A file that has the resolved path as a part hides the one that is named behind it.  A file that
is named by the top folder is never taken for its name. -/
theorem importTarget_hides_named :
    (Import.relativePath? (some .typescript) "./a".toList = some "./a".toList ∧
      Import.Names (Import.resolveRelative "src/b.ts".toList "./a".toList) "src/a.ts".toList ∧
      ¬ Import.Names (Import.resolveRelative "src/b.ts".toList "./a".toList) "src/ab.ts".toList ∧
      importTarget [helperIn "src/ab.ts", helperIn "src/a.ts"] "src/b.ts".toList "./a".toList
        (some .typescript) = some (helperIn "src/ab.ts")) ∧
    Import.relativePath? (some .typescript) ".".toList = some ".".toList ∧
      Import.Names (Import.resolveRelative "b.ts".toList ".".toList) ".ts".toList ∧
      ¬ Import.Names (Import.resolveRelative "b.ts".toList ".".toList) "z.ts".toList ∧
      importTarget [helperIn "z.ts", helperIn ".ts"] "b.ts".toList ".".toList
        (some .typescript) = some (helperIn "z.ts") := by
  decide

end Choice

end CodeGraph
