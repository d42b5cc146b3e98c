import CodeGraph.Proofs.Link.Distinct
import CodeGraph.Proofs.Link.ImportTarget

/-!
# The links for imports

The links that a file imports start at the declaration that stands for the file, and lead to the
declarations that its imported names mean, each of them once and for the first name that means it
(`IsImports`).  They depend on the batch and on the statements of this file alone: neither its other
text nor the other files matter (`resolve_imports`).
-/

namespace CodeGraph

/-! ## Imported names -/

/-- The names that statements import, each with its statement. -/
def importedNames (statements : List Import.Statement) : List (Import.Statement × String) :=
  statements.flatMap fun statement => statement.names.map fun name => (statement, name)

/-- The link starts at a declaration of the file with this path. -/
def Link.StartsIn (ds : List Declaration) (path : String) (l : Link) : Prop :=
  ∃ d ∈ ds, d.path = path ∧ d.id = l.source

instance (ds : List Declaration) (path : String) (l : Link) : Decidable (l.StartsIn ds path) :=
  inferInstanceAs (Decidable (∃ d ∈ ds, _))

/-- The links for imports that start in a file. -/
def importsFrom (ds : List Declaration) (path : String) (links : List Link) : List Link :=
  links.filter fun l => l.kind = .importing ∧ l.StartsIn ds path

/-- The declaration that an imported name means in a file. -/
def meant (ds : List Declaration) (path : String) (language : Option Language)
    (imported : Import.Statement × String) : Option Declaration :=
  importTarget (named ds imported.2) path.toList imported.1.source.toList language

/-- The link from a file, for which `source` stands, to the declaration that an imported name
means. -/
def importLink (source : Declaration) (imported : Import.Statement × String)
    (target : Declaration) :
    Link :=
  .shown .importing source.id target.id ⟨imported.1.line, 0⟩
    ("imports " ++ imported.2 ++ " from '" ++ imported.1.source ++ "'")

/-- The links lead from a declaration to all those that the names imported in a file mean. -/
structure IsImports (ds : List Declaration) (path : String) (language : Option Language)
    (statements : List Import.Statement) (source : Declaration) (links : List Link) : Prop where
  /-- A name of the batch means a declaration of this name, and this one is linked. -/
  linked : ∀ imported ∈ importedNames statements, (∃ d ∈ ds, d.name = imported.2) →
    ∃ t ∈ ds, t.name = imported.2 ∧ meant ds path language imported = some t ∧
      ∃ l ∈ links, l.target = t.id
  /-- A link is the one for the first name that means its target. -/
  first : ∀ l ∈ links, ∃ imported t, meant ds path language imported = some t ∧
    l = importLink source imported t ∧
    IsFirst (fun i => ∃ u, meant ds path language i = some u ∧ u.id = t.id)
      (importedNames statements) imported
  /-- No declaration is linked twice. -/
  once : (links.map Link.target).Nodup

section Imports

variable {table : ExtensionTable} {ds : List Declaration} {files files' : List SourceFile}
  {file file' : SourceFile} {source : Declaration} {l : Link} {path : String}

theorem mem_importsFrom {links : List Link} :
    l ∈ importsFrom ds path links ↔ l ∈ links ∧ l.kind = .importing ∧ l.StartsIn ds path := by
  rw [importsFrom, List.mem_filter, decide_eq_true_iff]

theorem importLinksOf_eq
    (stands : StandsForAll (ds.filter fun d => d.path = file.path) source) :
    importLinksOf table ds file =
      (importedNames (Import.scan (table.language file.path) file.content.toList)).filterMap
        fun imported => (meant ds file.path (table.language file.path) imported).map
          (importLink source imported) := by
  unfold importLinksOf importedNames
  rw [representative?_eq_some_iff.2 stands, List.filterMap_flatMap]
  simp only [List.filterMap_map]
  rfl

/-- Of the text of a file only its import statements matter. -/
theorem importLinksOf_congr (path : file'.path = file.path)
    (scanned : Import.scan (table.language file.path) file'.content.toList =
      Import.scan (table.language file.path) file.content.toList) :
    importLinksOf table ds file' = importLinksOf table ds file := by
  unfold importLinksOf importLink?
  simp only [path, scanned]

/-! ## One file among others -/

/-- Where no path has a colon, the links of a file start in this file only. -/
theorem startsIn_iff (plain : ∀ d ∈ ds, d.Plain) (h : l ∈ importLinksOf table ds file) :
    l.StartsIn ds path ↔ file.path = path := by
  obtain ⟨d, hd, -, -, -, source, -, own, -⟩ := mem_importLinksOf h
  constructor
  · rintro ⟨e, he, rfl, same⟩
    have parts := (id_eq_iff_parts_eq (plain e he) (plain d hd)).1 (same.trans source)
    exact own.symm.trans (congrArg (fun p => p.1) parts).symm
  · rintro rfl
    exact ⟨d, hd, own, source.symm⟩

theorem importsFrom_allLinks (path : String) :
    importsFrom ds path (allLinks table ds files) =
      importsFrom ds path (importLinks table ds files) := by
  have others (links : List Link) (h : ∀ l ∈ links, l.kind ≠ .importing) :
      importsFrom ds path links = [] := by
    refine List.eq_nil_iff_forall_not_mem.2 fun l hl => ?_
    obtain ⟨mem, kind, -⟩ := mem_importsFrom.1 hl
    exact h l mem kind
  have ownership := others (ownershipLinks ds) fun l hl => by simp [kind_of_mem_ownershipLinks hl]
  have bases := others (inheritanceLinks ds) fun l hl => by
    rcases kind_of_mem_inheritanceLinks hl with kind | kind <;> simp [kind]
  have calls := others (callLinks ds files) fun l hl => by simp [kind_of_mem_callLinks hl]
  unfold importsFrom at *
  rw [allLinks, List.filter_append, List.filter_append, List.filter_append, ownership, bases, calls,
    List.append_nil, List.nil_append, List.nil_append]

theorem importsFrom_importLinks (plain : ∀ d ∈ ds, d.Plain)
    (paths : (files.map SourceFile.path).Nodup) (given : file ∈ files) :
    importsFrom ds file.path (importLinks table ds files) = importLinksOf table ds file := by
  have own : importsFrom ds file.path (importLinksOf table ds file) =
      importLinksOf table ds file := by
    refine List.filter_eq_self.2 fun l hl => decide_eq_true ⟨?_, (startsIn_iff plain hl).2 rfl⟩
    exact kind_of_mem_importLinks (List.mem_flatMap.2 ⟨file, given, hl⟩)
  have others {other : SourceFile} (away : other.path ≠ file.path) :
      importsFrom ds file.path (importLinksOf table ds other) = [] := by
    refine List.eq_nil_iff_forall_not_mem.2 fun l hl => ?_
    obtain ⟨mem, -, starts⟩ := mem_importsFrom.1 hl
    exact away ((startsIn_iff plain mem).1 starts)
  obtain ⟨before, after, rfl⟩ := List.append_of_mem given
  rw [List.map_append, List.map_cons, List.nodup_append, List.nodup_cons] at paths
  obtain ⟨-, ⟨fresh, -⟩, apart⟩ := paths
  have front : before.flatMap (fun f => importsFrom ds file.path (importLinksOf table ds f)) = [] :=
    List.flatMap_eq_nil_iff.2 fun f hf =>
      others (apart _ (List.mem_map_of_mem hf) _ List.mem_cons_self)
  have back : after.flatMap (fun f => importsFrom ds file.path (importLinksOf table ds f)) = [] :=
    List.flatMap_eq_nil_iff.2 fun f hf =>
      others fun same => fresh (List.mem_map.2 ⟨f, hf, same⟩)
  unfold importsFrom at *
  rw [importLinks, List.filter_flatMap, List.flatMap_append, List.flatMap_cons, front, back, own,
    List.nil_append, List.append_nil]

theorem importsFrom_withoutRepeats (plain : ∀ d ∈ ds, d.Plain) (path : String) :
    importsFrom ds path (resolve table ds files) =
      withoutRepeats Link.id (importsFrom ds path (allLinks table ds files)) := by
  refine (withoutRepeats_filter Link.id fun l hl l' hl' same => ?_).symm
  obtain ⟨kind, ends⟩ := Prod.mk.inj ((id_eq_iff_ends_eq plain hl hl').1 same)
  refine decide_eq_decide.2 ?_
  rw [kind, Link.StartsIn, (Prod.mk.inj ends).1]
  rfl

variable (table) in
/-- What is left of the links of a file is the first one to each target. -/
theorem importsFrom_resolve (plain : ∀ d ∈ ds, d.Plain)
    (paths : (files.map SourceFile.path).Nodup) (given : file ∈ files)
    (stands : StandsForAll (ds.filter fun d => d.path = file.path) source) :
    importsFrom ds file.path (resolve table ds files) =
      withoutRepeats Link.target (importLinksOf table ds file) := by
  rw [importsFrom_withoutRepeats plain, importsFrom_allLinks,
    importsFrom_importLinks plain paths given]
  refine withoutRepeats_congr fun l hl l' hl' => ?_
  rw [importLinksOf_eq stands] at hl hl'
  obtain ⟨_, _, found⟩ := List.mem_filterMap.1 hl
  obtain ⟨_, _, found'⟩ := List.mem_filterMap.1 hl'
  obtain ⟨t, -, rfl⟩ := Option.map_eq_some_iff.1 found
  obtain ⟨t', -, rfl⟩ := Option.map_eq_some_iff.1 found'
  constructor
  · exact target_eq_of_linkId_eq
  · intro same
    exact congrArg (linkId .importing source.id) same

/-! ## All imports of a file -/

theorem meant_of_named {imported : Import.Statement × String} {language : Option Language}
    (known : ∃ d ∈ ds, d.name = imported.2) :
    ∃ t ∈ ds, t.name = imported.2 ∧ meant ds path language imported = some t := by
  obtain ⟨d, hd, same⟩ := known
  have any : named ds imported.2 ≠ [] := List.ne_nil_of_mem (mem_named.2 ⟨hd, same⟩)
  obtain ⟨t, found⟩ := exists_importTarget path.toList imported.1.source.toList language any
  obtain ⟨ht, name⟩ := importTarget_named found
  exact ⟨t, ht, name, found⟩

theorem isImports_withoutRepeats
    (stands : StandsForAll (ds.filter fun d => d.path = file.path) source) :
    IsImports ds file.path (table.language file.path)
      (Import.scan (table.language file.path) file.content.toList) source
      (withoutRepeats Link.target (importLinksOf table ds file)) where
  linked imported himported known := by
    obtain ⟨t, ht, name, found⟩ := meant_of_named known
    refine ⟨t, ht, name, found, ?_⟩
    have link : importLink source imported t ∈ importLinksOf table ds file := by
      rw [importLinksOf_eq stands]
      refine List.mem_filterMap.2 ⟨imported, himported, ?_⟩
      rw [found]
      rfl
    exact exists_mem_withoutRepeats Link.target link
  first l hl := by
    rw [mem_withoutRepeats_iff, importLinksOf_eq stands, List.find?_filterMap,
      Option.bind_eq_some_iff] at hl
    obtain ⟨imported, first, found⟩ := hl
    obtain ⟨t, means, rfl⟩ := Option.map_eq_some_iff.1 found
    refine ⟨imported, t, means, rfl, (find?_eq_some_iff_isFirst fun i => ?_).1 first⟩
    rw [Option.any_map, Option.any_eq_true]
    exact exists_congr fun u => and_congr_right fun _ => decide_eq_true_iff
  once := nodup_map_withoutRepeats Link.target _

/-- Imports start only in files of the batch that declare something.  For such a file its first
declaration without an owner stands, or its first one, and the links lead to what the imported names
mean.  Other files, and another text of this file with the same import statements, have no
influence. -/
theorem resolve_imports (table : ExtensionTable) (plain : ∀ d ∈ ds, d.Plain)
    (paths : (files.map SourceFile.path).Nodup) :
    (∀ path, importsFrom ds path (resolve table ds files) ≠ [] →
      (∃ file ∈ files, file.path = path) ∧ ∃ d ∈ ds, d.path = path) ∧
    ∀ file ∈ files, (∃ d ∈ ds, d.path = file.path) →
      (∃ source, StandsForAll (ds.filter fun d => d.path = file.path) source ∧
        IsImports ds file.path (table.language file.path)
          (Import.scan (table.language file.path) file.content.toList) source
          (importsFrom ds file.path (resolve table ds files))) ∧
      ∀ files' : List SourceFile, (files'.map SourceFile.path).Nodup →
        ∀ file' ∈ files', file'.path = file.path →
        Import.scan (table.language file.path) file'.content.toList =
          Import.scan (table.language file.path) file.content.toList →
        importsFrom ds file.path (resolve table ds files') =
          importsFrom ds file.path (resolve table ds files) := by
  constructor
  · intro path some
    obtain ⟨l, hl⟩ := List.exists_mem_of_ne_nil _ some
    rw [importsFrom_withoutRepeats plain, importsFrom_allLinks] at hl
    obtain ⟨found, -, starts⟩ := mem_importsFrom.1 (mem_of_mem_withoutRepeats _ hl)
    obtain ⟨file, given, own⟩ := List.mem_flatMap.1 found
    obtain ⟨d, hd, inside, -⟩ := id starts
    exact ⟨⟨file, given, (startsIn_iff plain own).1 starts⟩, d, hd, inside⟩
  · rintro file given ⟨d, hd, inside⟩
    have any : (ds.filter fun d => d.path = file.path) ≠ [] :=
      List.ne_nil_of_mem (List.mem_filter.2 ⟨hd, decide_eq_true inside⟩)
    obtain ⟨source, stands⟩ := exists_standsForAll any
    have all := importsFrom_resolve table plain paths given stands
    constructor
    · refine ⟨source, stands, ?_⟩
      rw [all]
      exact isImports_withoutRepeats stands
    · intro files' paths' file' given' path scanned
      have stands' : StandsForAll (ds.filter fun d => d.path = file'.path) source := by rwa [path]
      have all' := importsFrom_resolve table plain paths' given' stands'
      rw [all, ← importLinksOf_congr path scanned, ← all', path]

end Imports

/-- Two functions of `lib.py` and a function of `app.py`. -/
def libraryBatch : List Declaration :=
  let row (name path : String) (line : Int) : Declaration :=
    ⟨name, .function, .python, path, ⟨⟨line, 0⟩, ⟨line, 9⟩⟩, {}, none⟩
  [row "helper" "lib.py" 1, row "other" "lib.py" 2, row "run" "app.py" 4]

/-- A file that imports `helper` twice. -/
def importingFile : SourceFile :=
  ⟨"app.py", "from lib import helper as h, other\nfrom lib import helper\n"⟩

/-- The same statements with a remark behind them. -/
def remarkedFile : SourceFile := ⟨"app.py", importingFile.content ++ "# helper()\n"⟩

/-- A file that imports from the first one. -/
def importedFile : SourceFile := ⟨"lib.py", "from app import run\n"⟩

/-- Both functions are linked once, and so they are with a remark in the file and another file. -/
theorem resolve_imports_library :
    (∀ d ∈ libraryBatch, d.Plain) ∧ ([importingFile].map SourceFile.path).Nodup ∧
      (∃ source, StandsForAll (libraryBatch.filter fun d => d.path = "app.py") source ∧
        IsImports libraryBatch "app.py" (some .python)
          [⟨"lib", ["helper", "other"], 1⟩, ⟨"lib", ["helper"], 2⟩] source
          (importsFrom libraryBatch "app.py" (resolve .standard libraryBatch [importingFile]))) ∧
      importsFrom libraryBatch "app.py"
          (resolve .standard libraryBatch [importedFile, remarkedFile]) =
        importsFrom libraryBatch "app.py" (resolve .standard libraryBatch [importingFile]) := by
  have plain : ∀ d ∈ libraryBatch, d.Plain := by decide
  have paths : ([importingFile].map SourceFile.path).Nodup := List.nodup_singleton _
  have python : ExtensionTable.standard.language importingFile.path = some .python := by
    decide +kernel
  have scanned : Import.scan (some .python) importingFile.content.toList =
      [⟨"lib", ["helper", "other"], 1⟩, ⟨"lib", ["helper"], 2⟩] := by decide +kernel
  have same : Import.scan (some .python) remarkedFile.content.toList =
      Import.scan (some .python) importingFile.content.toList := by decide +kernel
  have declared : ∃ d ∈ libraryBatch, d.path = importingFile.path := by decide
  obtain ⟨whole, alone⟩ := (resolve_imports .standard plain paths).2 importingFile
    (List.mem_singleton_self _) declared
  rw [python] at whole alone
  refine ⟨plain, paths, scanned ▸ whole, ?_⟩
  exact alone [importedFile, remarkedFile] (by decide) remarkedFile (by simp) rfl same

end CodeGraph
