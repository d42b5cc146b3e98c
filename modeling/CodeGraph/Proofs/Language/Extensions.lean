import CodeGraph.Language.Table
import CodeGraph.Proofs.Text.Lower
import CodeGraph.Proofs.Text.Pieces
import Mathlib.Data.List.Nodup

/-!
# Extensions that take effect

The keys of an extension table are in lower case, have a dot in front and differ from each other
(`IsProper.extend`).  So a file whose name ends in an extension of the table has the language that
the table shows for it, and the grammar of that language or, for `.tsx`, the one of its own
(`language_of_shown`).  That needs an extension that is a suffix: a dot with something behind it
that has no further dot.  An extension such as `.d.ts` is in the table without taking effect, and
`.tsx` keeps its grammar when it is given another language (`not_takesEffect`).  A name that is
supported means the same language in every folder (`IsProper.language_folder`).
-/

namespace CodeGraph

open CodeGraph.Json CodeGraph.Text

/-! ## Suffixes of names -/

namespace Path

/-- The name at the end of a path, a backslash counting as a slash. -/
def name (path : List Char) : List Char := finalName (replaceChar '\\' '/' path)

/-- A dot, and something behind it that has no further dot. -/
def IsSuffix (text : List Char) : Prop := ∃ tail, text = '.' :: tail ∧ tail ≠ [] ∧ '.' ∉ tail

theorem suffix_append {stem text : List Char} (some : stem ≠ []) (h : IsSuffix text) :
    suffix (stem ++ text) = text := by
  obtain ⟨tail, rfl, nonempty, free⟩ := h
  have last : (stem ++ '.' :: tail).reverse.takeWhile (· ≠ '.') = tail.reverse :=
    (takeWhile_reverse_of_notMem free stem).2
  have inside : tail.length + 1 < (stem ++ '.' :: tail).length := by
    have := List.length_pos_iff.2 some
    rw [List.length_append, List.length_cons]
    omega
  rw [suffix, last, List.reverse_reverse]
  exact if_pos ⟨nonempty, inside⟩

/-! ## Names in folders -/

@[simp]
theorem components_append_cons (folder rest : List Char) :
    components (folder ++ '/' :: rest) = components folder ++ components rest := by
  rw [components, cutAt_append_cons, List.filter_append]
  rfl

/-- A name that has an extension keeps it in every folder. -/
theorem extension_append_cons {name : List Char} (some : extension name ≠ []) (folder : List Char) :
    extension (folder ++ '/' :: name) = extension name := by
  have named : components (replaceChar '\\' '/' name) ≠ [] := by
    intro none
    apply some
    rw [extension, finalName, none]
    rfl
  have inside : replaceChar '\\' '/' (folder ++ '/' :: name) =
      replaceChar '\\' '/' folder ++ '/' :: replaceChar '\\' '/' name := by
    rw [replaceChar, List.map_append, List.map_cons]
    rfl
  have last : finalName (replaceChar '\\' '/' (folder ++ '/' :: name)) =
      finalName (replaceChar '\\' '/' name) := by
    rw [finalName, inside, components_append_cons, List.getLastD_eq_getLast?,
      List.getLast?_append_of_ne_nil _ named, ← List.getLastD_eq_getLast?, finalName]
  rw [extension, last, extension]

end Path

namespace ExtensionTable

variable {table : ExtensionTable} {entries : List (String × Language)}
  {mapping : List (String × Value)} {ext path : String} {language : Language}

/-! ## Keys -/

/-- In lower case and with a dot in front. -/
def IsKey (ext : String) : Prop := ext.toList.head? = some '.' ∧ IsLower ext.toList

theorem isKey_key (ext : String) : IsKey (key ext) := by
  have dot : IsSmall '.' := isSmall_of_ascii (by decide) (by decide)
  rw [key]
  split
  · next front =>
    obtain ⟨rest, eq⟩ := List.head?_eq_some_iff.1 front
    rw [IsKey, String.toList_ofList, eq]
    exact ⟨rfl, isLower_lower _⟩
  · rw [IsKey, String.toList_ofList]
    exact ⟨rfl, List.forall_mem_cons.2 ⟨dot, isLower_lower _⟩⟩

theorem keys_insertInto (key : String) (language : Language) (entries : List (String × Language)) :
    (insertInto key language entries).map Prod.fst =
      if key ∈ entries.map Prod.fst then entries.map Prod.fst
      else entries.map Prod.fst ++ [key] := by
  induction entries with
  | nil => rfl
  | cons entry rest ih =>
    obtain ⟨k, l⟩ := entry
    rw [insertInto]
    by_cases same : k = key
    · rw [if_pos same, List.map_cons, List.map_cons, if_pos (same ▸ List.mem_cons_self)]
    · rw [if_neg same, List.map_cons, ih]
      simp only [List.map_cons, List.mem_cons, Ne.symm same, false_or]
      split <;> rfl

/-- The keys of the table differ from each other and are as they should be. -/
structure IsProper (table : ExtensionTable) : Prop where
  distinct : (table.entries.map Prod.fst).Nodup
  isKey : ∀ ext ∈ table.entries.map Prod.fst, IsKey ext

theorem isProper_standard : standard.IsProper where
  distinct := by decide
  isKey := by
    have ascii : (standard.entries.map Prod.fst).all (fun ext => ext.toList.head? == some '.' &&
        ext.toList.all fun c => c.toNat < 128 && c.toLower == c) = true := by decide +kernel
    simp only [List.all_eq_true, Bool.and_eq_true, decide_eq_true_eq, beq_iff_eq] at ascii
    intro ext h
    obtain ⟨dot, small⟩ := ascii ext h
    exact ⟨dot, fun c hc => isSmall_of_ascii (small c hc).1 (small c hc).2⟩

theorem IsProper.set (h : table.IsProper) (ext : String) (language : Language) :
    (table.set ext language).IsProper := by
  have keys := keys_insertInto (key ext) language table.entries
  split at keys
  · exact ⟨keys ▸ h.distinct, keys ▸ h.isKey⟩
  · next new =>
    refine ⟨?_, fun other mem => ?_⟩
    · rw [ExtensionTable.set, keys]
      exact h.distinct.append (List.nodup_singleton _) (List.disjoint_singleton.2 new)
    · rw [ExtensionTable.set, keys, List.mem_append, List.mem_singleton] at mem
      rcases mem with old | rfl
      · exact h.isKey other old
      · exact isKey_key ext

/-- Settings keep the table proper. -/
theorem IsProper.extend {result : ExtensionTable} (h : table.IsProper)
    (accepted : table.extend mapping = .ok result) : result.IsProper := by
  induction mapping generalizing table with
  | nil =>
    cases accepted
    exact h
  | cons entry rest ih =>
    obtain ⟨ext, value⟩ := entry
    rw [ExtensionTable.extend] at accepted
    split at accepted
    · exact ih (h.set ext _) accepted
    · cases accepted

theorem IsProper.lookup_eq (h : table.IsProper) (shown : (ext, language) ∈ table.entries) :
    table.entries.lookup ext = some language := by
  obtain ⟨earlier, later, eq⟩ := List.append_of_mem shown
  refine List.lookup_eq_some_iff.2 ⟨earlier, later, eq, fun other mem => ?_⟩
  have distinct := h.distinct
  rw [eq, List.map_append, List.map_cons, List.nodup_append] at distinct
  rw [bne_iff_ne]
  exact (distinct.2.2 _ (List.mem_map_of_mem mem) _ List.mem_cons_self).symm

theorem IsProper.extension_ne_nil (h : table.IsProper) (supported : table.supports path = true) :
    Path.extension path.toList ≠ [] := by
  intro none
  obtain ⟨_, known⟩ := Option.isSome_iff_exists.1 supported
  rw [ExtensionTable.language, none] at known
  obtain ⟨earlier, later, eq, -⟩ := List.lookup_eq_some_iff.1 known
  have shown : String.ofList [] ∈ table.entries.map Prod.fst := by
    rw [eq, List.map_append, List.map_cons]
    exact List.mem_append_right _ List.mem_cons_self
  -- keys have a dot in front
  exact absurd (h.isKey _ shown).1 (by decide)

/-- A file with a supported name is of the same language in every folder. -/
theorem IsProper.language_folder (h : table.IsProper) {name : String}
    (supported : table.supports name = true) (folder : String) :
    table.language (folder ++ "/" ++ name) = table.language name := by
  have path : (folder ++ "/" ++ name).toList = folder.toList ++ '/' :: name.toList := by
    rw [String.toList_append, String.toList_append, List.append_assoc]
    rfl
  rw [ExtensionTable.language, path,
    Path.extension_append_cons (h.extension_ne_nil supported), ExtensionTable.language]

/-! ## Taking effect -/

/-- The extension of a path whose name ends in a suffix in lower case is that suffix. -/
theorem extension_eq {stem : List Char} (key : IsKey ext) (single : Path.IsSuffix ext.toList)
    (some : stem ≠ []) (named : Path.name path.toList = stem ++ ext.toList) :
    Path.extension path.toList = ext.toList :=
  calc Path.extension path.toList
      = lower (Path.suffix (Path.name path.toList)) := rfl
    _ = lower ext.toList := by rw [named, Path.suffix_append some single]
    _ = ext.toList := lower_eq_self key.2

/-- Every extension of a table that is a suffix takes effect: a path whose name is `file` with the
extension has the language that the table shows, and the grammar of that language; files with the
extension `.tsx` have the grammar of that name. -/
theorem language_of_shown (accepted : standard.extend mapping = .ok table)
    (shown : (ext, language) ∈ table.entries) (single : Path.IsSuffix ext.toList)
    (named : Path.name path.toList = "file".toList ++ ext.toList) :
    table.language path = some language ∧
      table.grammar path = some (if ext = ".tsx" then "tsx" else language.grammar) := by
  have proper := isProper_standard.extend accepted
  have isKey := proper.isKey ext (List.mem_map_of_mem shown)
  have extension := extension_eq isKey single (by decide) named
  have found : table.language path = some language := by
    rw [ExtensionTable.language, extension, String.ofList_toList, proper.lookup_eq shown]
  refine ⟨found, ?_⟩
  rw [ExtensionTable.grammar, found, Option.map_some, grammarOf, extension]
  simp only [String.toList_inj]

/-- An extension that is added without a dot and in capitals takes effect. -/
theorem language_of_shown_es6 : ∃ table, standard.extend [("ES6", .text "javascript")] = .ok table ∧
    (".es6", .javascript) ∈ table.entries ∧ Path.IsSuffix ".es6".toList ∧
    Path.name "old\\file.es6".toList = "file".toList ++ ".es6".toList ∧
    table.language "old\\file.es6" = some .javascript ∧
    table.grammar "old\\file.es6" = some "javascript" := by
  have accepted : standard.extend [("ES6", .text "javascript")] =
      .ok (standard.set "ES6" .javascript) := rfl
  have shown : (".es6", Language.javascript) ∈
      (standard.set "ES6" .javascript).entries := by decide +kernel
  have single : Path.IsSuffix ".es6".toList := ⟨"es6".toList, rfl, by decide, by decide⟩
  have named : Path.name "old\\file.es6".toList = "file".toList ++ ".es6".toList := by
    decide +kernel
  obtain ⟨language, grammar⟩ := language_of_shown accepted shown single named
  exact ⟨_, accepted, shown, single, named, language, grammar⟩

/-- A path whose name is `file` with the extension has the language, and one of its grammars. -/
def TakesEffect (table : ExtensionTable) (ext : String) (language : Language) : Prop :=
  ∀ path : String, Path.name path.toList = "file".toList ++ ext.toList →
    table.language path = some language ∧
      (table.grammar path = some language.grammar ∨
        language = .typescript ∧ table.grammar path = some "tsx")

/-- Three extensions that settings may add. -/
def oddMapping : List (String × Value) :=
  [("tsx", .text "javascript"), ("d.ts", .text "javascript"), ("", .text "python")]

/-- Three extensions that a table shows without taking effect: a file with the extension `.tsx` that
is to have JavaScript has no grammar of JavaScript, one with the extension `.d.ts` has another
language, and one whose name ends in a dot has none. -/
theorem not_takesEffect : ∃ table, standard.extend oddMapping = .ok table ∧
    ((".tsx", .javascript) ∈ table.entries ∧ ¬ table.TakesEffect ".tsx" .javascript) ∧
    ((".d.ts", .javascript) ∈ table.entries ∧ ¬ table.TakesEffect ".d.ts" .javascript) ∧
    (".", .python) ∈ table.entries ∧ ¬ table.TakesEffect "." .python := by
  refine ⟨_, rfl, ⟨by decide +kernel, fun effect => ?_⟩, ⟨by decide +kernel, fun effect => ?_⟩,
    by decide +kernel, fun effect => ?_⟩
  · have := (effect "file.tsx" (by decide +kernel)).2
    revert this
    decide +kernel
  · have := (effect "file.d.ts" (by decide +kernel)).1
    revert this
    decide +kernel
  · have := (effect "file." (by decide +kernel)).1
    revert this
    decide +kernel

end ExtensionTable

end CodeGraph
