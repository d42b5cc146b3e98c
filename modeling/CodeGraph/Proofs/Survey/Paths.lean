import CodeGraph.Proofs.Survey.Sightings

/-!
# Declarations have the path of their file

Readers that keep the path, as the standard ones do (`keepPaths_standard`), declare nothing for
other files than the one that they read.  So the declarations of several files with different paths
fall apart into those of each file (`filter_declared`).
-/

namespace CodeGraph

/-- What the reader finds in a file has the path of the file. -/
def Reader.KeepsPath (reader : Reader) : Prop :=
  ∀ file, ∀ d ∈ reader.runGuarded file, d.path = file.path

/-- All readers keep the path. -/
def ReaderTable.KeepPaths (readers : ReaderTable) : Prop :=
  ∀ language reader, readers language = some reader → reader.KeepsPath

/-- What the reader finds in a file stands at a node of its tree. -/
def Reader.KeepsPlace (reader : Reader) : Prop :=
  ∀ file, ∀ d ∈ reader.runGuarded file,
    ∃ q, Relation.ReflTransGen Place.IsChild (.root file.tree) q ∧ StandsAt file q d

/-- All readers find declarations at nodes only. -/
def ReaderTable.KeepPlaces (readers : ReaderTable) : Prop :=
  ∀ language reader, readers language = some reader → reader.KeepsPlace

theorem ReaderTable.KeepPlaces.paths {readers : ReaderTable} (h : readers.KeepPlaces) :
    readers.KeepPaths := by
  intro language reader known file d hd
  obtain ⟨q, -, stands⟩ := h language reader known file d hd
  exact stands.path

theorem keepsPlace_of_standard {language : Language} {reader : Reader}
    (h : ReaderTable.standard language = some reader) : reader.KeepsPlace := by
  intro file d hd
  rw [runGuarded_standard h] at hd
  have sighted := mem_of_mem_withoutRepeats _ hd
  exact ((ownersFirst_sightings file language).forall_mem d sighted).place

/-- Any table of standard readers and of readers that find nothing, such as those that always
fail. -/
theorem keepPlaces_of_standard_or_failing {readers : ReaderTable}
    (h : ∀ language reader, readers language = some reader →
      (∃ usual, ReaderTable.standard usual = some reader) ∨ ∀ file, reader.runGuarded file = []) :
    readers.KeepPlaces := by
  intro language reader known
  rcases h language reader known with ⟨usual, standard⟩ | fails
  · exact keepsPlace_of_standard standard
  · intro file d hd
    rw [fails file] at hd
    cases hd

theorem keepPlaces_standard : ReaderTable.standard.KeepPlaces :=
  keepPlaces_of_standard_or_failing fun language _ h => Or.inl ⟨language, h⟩

theorem keepPaths_standard : ReaderTable.standard.KeepPaths := keepPlaces_standard.paths

namespace Surveyor

variable {s : Surveyor} {lack? : String → Option Fault} {files : List SourceFile}

/-- What comes of a file that declares something was read off its tree. -/
theorem exists_parsed_of_mem_outcome {file : SourceFile} {d : Declaration}
    (h : d ∈ (s.outcome lack? file).declarations) :
    ∃ language reader parsed, s.readers language = some reader ∧
      s.tools.parsed lack? file.path file.content = .ok parsed ∧ d ∈ reader.runGuarded parsed := by
  unfold outcome at h
  cases hreader : s.reader? file.path with
  | none =>
    rw [hreader] at h
    cases h
  | some reader =>
    obtain ⟨language, -, known⟩ := Option.bind_eq_some_iff.1 hreader
    rw [hreader] at h
    dsimp only at h
    rw [declarations_outcomeOf] at h
    cases hparsed : s.tools.parsed lack? file.path file.content with
    | error f =>
      rw [hparsed] at h
      cases h
    | ok parsed =>
      rw [hparsed] at h
      exact ⟨language, reader, parsed, known, rfl, h⟩

theorem path_of_mem_outcome (own : s.readers.KeepPaths) {file : SourceFile} {d : Declaration}
    (h : d ∈ (s.outcome lack? file).declarations) : d.path = file.path := by
  obtain ⟨language, reader, parsed, known, ok, hd⟩ := exists_parsed_of_mem_outcome h
  exact (own language reader known parsed d hd).trans (Toolbox.parsed_eq_ok ok).1

variable (s) in
/-- The declarations that the files give, one file after the other. -/
def declared (lack? : String → Option Fault) (files : List SourceFile) : List Declaration :=
  files.flatMap fun file => (s.outcome lack? file).declarations

theorem declarationsOf_outcomes_eq (lack? : String → Option Fault) (files : List SourceFile) :
    declarationsOf (s.outcomes lack? files) = distinctDeclarations (s.declared lack? files) := by
  rw [declarationsOf, outcomes, declared, List.flatMap_map]

theorem exists_file_of_mem_declared (own : s.readers.KeepPaths) {d : Declaration}
    (h : d ∈ s.declared lack? files) : ∃ file ∈ files, d.path = file.path := by
  obtain ⟨file, hfile, hd⟩ := List.mem_flatMap.1 h
  exact ⟨file, hfile, path_of_mem_outcome own hd⟩

/-- Among the declarations of files with different paths, those of a path are those of its file. -/
theorem filter_declared (own : s.readers.KeepPaths) (distinct : (files.map SourceFile.path).Nodup)
    {file : SourceFile} (hfile : file ∈ files) :
    ((s.declared lack? files).filter fun d => d.path = file.path) =
      (s.outcome lack? file).declarations := by
  induction files with
  | nil => cases hfile
  | cons first rest ih =>
    rw [List.map_cons, List.nodup_cons] at distinct
    rw [declared, List.flatMap_cons, List.filter_append, ← declared]
    rcases List.mem_cons.1 hfile with rfl | hrest
    · have all : ((s.outcome lack? file).declarations.filter fun d => d.path = file.path) =
          (s.outcome lack? file).declarations :=
        List.filter_eq_self.2 fun d hd => decide_eq_true (path_of_mem_outcome own hd)
      have none : ((s.declared lack? rest).filter fun d => d.path = file.path) = [] := by
        refine List.filter_eq_nil_iff.2 fun d hd same => distinct.1 ?_
        obtain ⟨other, hother, path⟩ := exists_file_of_mem_declared own hd
        exact List.mem_map.2 ⟨other, hother, path.symm.trans (of_decide_eq_true same)⟩
      rw [all, none, List.append_nil]
    · have none :
          ((s.outcome lack? first).declarations.filter fun d => d.path = file.path) = [] := by
        refine List.filter_eq_nil_iff.2 fun d hd same => distinct.1 ?_
        rw [← path_of_mem_outcome own hd, of_decide_eq_true same]
        exact List.mem_map_of_mem hrest
      rw [none, List.nil_append, ih distinct.2 hrest]

end Surveyor

end CodeGraph
