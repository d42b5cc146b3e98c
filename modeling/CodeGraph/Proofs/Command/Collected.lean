import CodeGraph.Command.Analyze
import CodeGraph.Proofs.Fallible
import CodeGraph.Proofs.Files.Search
import CodeGraph.Proofs.Language.Extensions
import CodeGraph.Proofs.Survey.Accounting

/-!
# Files that an analysis collects

The search for source files asks about their names alone, the survey about their paths from the
project.  Both answers are the same (`ExtensionTable.IsProper.language_folder`), so the survey
covers every file that an analysis has collected and read (`Collected.covers`).  Each of the
collected files is read, or there is a record that says why it is not (`exists_said`).
-/

namespace CodeGraph.Command

open CodeGraph.Files CodeGraph.Ignore CodeGraph.Json

variable {host : Host} {journal : Journal} {request : AnalyzeRequest}
  {project place start : Location}

/-! ## Paths from the project -/

theorem projectPath_append (project names : Location) :
    projectPath project (project ++ names) = String.ofList (relativeText names) := by
  simp [projectPath]

theorem projectPath_concat (project way : Location) (name : String) :
    projectPath project (project ++ (way ++ [name])) = name ∨
      ∃ folder, projectPath project (project ++ (way ++ [name])) = folder ++ "/" ++ name := by
  have last : relativeText [name] = name.toList := by
    rw [relativeText_of_ne_nil (by simp)]
    rfl
  rw [projectPath_append]
  by_cases top : way = []
  · left
    rw [top, List.nil_append, last, String.ofList_toList]
  · right
    refine ⟨String.ofList (relativeText way), String.toList_inj.1 ?_⟩
    rw [relativeText_append top (by simp), last]
    simp

/-- The project of a file is its folder, that of a folder the folder. -/
theorem projectOf_eq_ok (ok : projectOf host place = .ok project)
    (settled : host.settled place = .ok start) :
    ∃ node, present? host.disk start = .ok node ∧
      project = match node with
        | some (.file _) => start.dropLast
        | _ => start := by
  simp only [projectOf, bind_eq_ok] at ok
  obtain ⟨other, same, node, present, ok⟩ := ok
  obtain rfl := Except.ok.inj (settled.symm.trans same)
  refine ⟨node, mapError_eq_ok.1 present, ?_⟩
  cases node with
  | none => exact (Except.ok.inj ok).symm
  | some node => cases node <;> exact (Except.ok.inj ok).symm

/-! ## What an analysis collects -/

/-- The project that an analysis has found, with its settings. -/
structure FoundProject (host : Host) (request : AnalyzeRequest) where
  place : Location
  project : Location
  root : Location
  settings : Value
  options : Settings.Analysis
  located : host.locate request.path = .ok place
  found : projectOf host place = .ok project
  settled : host.settled project = .ok root
  loaded : host.settings (some root) = .ok settings
  chosen : Settings.analysis settings = .ok options

/-- The files that an analysis has collected: the source files that the patterns of the project keep
and that its extensions know. -/
structure Collected (host : Host) (request : AnalyzeRequest) extends FoundProject host request where
  table : ExtensionTable
  matcher : Matcher
  start : Location
  places : List Location
  accepted : ExtensionTable.standard.extend options.extensions = .ok table
  matched : projectMatcher host root settings = .ok matcher
  startsAt : host.settled place = .ok start
  searched : sourceFiles host.disk matcher table.supports root start = .ok places

namespace Collected

variable (c : Collected host request)

/-- The survey of the files. -/
def plan : SurveyPlan := ⟨surveyorFor host c.table c.options request, c.project, c.places⟩

/-- What is said about the files that the search has passed over. -/
def passedOver (journal : Journal) : List Notice :=
  if journal.showsDetails then
    unknownDetails c.table (askedNames host.disk c.matcher c.root c.start)
  else []

/-- The disk when the files are about to be read. -/
def disk (journal : Journal) : Node := journal.note host.disk (c.passedOver journal)

/-- What reading the files gives. -/
def sources (journal : Journal) : Sources :=
  readSources journal c.project (c.disk journal) c.places

variable {c}

/-- A collected file stands at names below the project, and the last of them is supported. -/
theorem exists_names (h : place ∈ c.places) :
    ∃ way name, place = c.project ++ (way ++ [name]) ∧ c.table.supports name = true := by
  have proper := ExtensionTable.isProper_standard.extend c.accepted
  obtain ⟨node, present, isProject⟩ := projectOf_eq_ok c.found c.startsAt
  rcases name_of_mem_sourceFiles c.searched h with
    ⟨content, isFile, rfl, known⟩ | ⟨entries, way, name, isFolder, rfl, known⟩
  · obtain rfl := Except.ok.inj (present.symm.trans isFile)
    have some : c.start ≠ [] := by
      intro none
      rw [none] at known
      exact proper.extension_ne_nil known (by decide)
    obtain ⟨inner, name, eq⟩ := List.eq_nil_or_concat' c.start |>.resolve_left some
    rw [eq, List.getLastD_concat] at known
    refine ⟨[], name, ?_, known⟩
    rw [isProject, eq]
    simp
  · obtain rfl := Except.ok.inj (present.symm.trans isFolder)
    exact ⟨way, name, by rw [isProject], known⟩

theorem supports_projectPath (h : place ∈ c.places) :
    c.table.supports (projectPath c.project place) = true := by
  obtain ⟨way, name, rfl, known⟩ := exists_names h
  have proper := ExtensionTable.isProper_standard.extend c.accepted
  rcases projectPath_concat c.project way name with path | ⟨folder, path⟩
  · rw [path, known]
  · rw [path, ExtensionTable.supports, proper.language_folder known]
    exact known

end Collected

/-- A survey by the command covers the paths that the table supports: every language has a
reader. -/
@[simp]
theorem covers_surveyorFor (host : Host) (table : ExtensionTable) (options : Settings.Analysis)
    (request : AnalyzeRequest) (path : String) :
    (surveyorFor host table options request).covers path = table.supports path := by
  have reads : (surveyorFor host table options request).supports path = table.supports path := by
    rw [Surveyor.supports, Surveyor.reader?, ExtensionTable.supports]
    change ((table.language path).bind ReaderTable.standard).isSome = _
    cases table.language path with
    | none => rfl
    | some language => cases language <;> rfl
  rw [Surveyor.covers, reads]
  exact Bool.and_self _

/-! ## What reading gives -/

theorem path_of_readSource {disk : Node} {file : SourceFile}
    (ok : readSource disk project place = .ok file) : file.path = projectPath project place := by
  unfold readSource at ok
  split at ok
  · rw [← Except.ok.inj ok]
  · cases ok

/-- The files come from the places. -/
theorem exists_place_of_mem_files {places : List Location} {disk : Node} {file : SourceFile}
    (h : file ∈ (readSources journal project disk places).files) :
    ∃ place ∈ places, file.path = projectPath project place := by
  induction places generalizing disk with
  | nil => cases h
  | cons place rest ih =>
    rw [readSources] at h
    split at h
    · next read =>
      rcases List.mem_cons.1 h with rfl | later
      · exact ⟨place, List.mem_cons_self, path_of_readSource read⟩
      · obtain ⟨other, known, path⟩ := ih later
        exact ⟨other, List.mem_cons_of_mem _ known, path⟩
    · obtain ⟨other, known, path⟩ := ih h
      exact ⟨other, List.mem_cons_of_mem _ known, path⟩

/-- The disk after notices that are said one after the other. -/
def noteEach (journal : Journal) (disk : Node) (said : List Notice) : Node :=
  said.foldl (fun disk notice => journal.note disk [notice]) disk

/-- Every place is read once the records of those before it have been said: this gives one of the
files, or one more record. -/
theorem exists_said (journal : Journal) (project : Location) (disk : Node)
    {places : List Location} (h : place ∈ places) :
    ∃ said, said <+: (readSources journal project disk places).unread ∧
      ((∃ file ∈ (readSources journal project disk places).files,
        readSource (noteEach journal disk said) project place = .ok file) ∨
      ∃ r, .record r ∈ (readSources journal project disk places).unread ∧
        readSource (noteEach journal disk said) project place = .error r) := by
  induction places generalizing disk with
  | nil => cases h
  | cons first rest ih =>
    rw [readSources]
    split
    · next file read =>
      rcases List.mem_cons.1 h with rfl | later
      · exact ⟨[], List.nil_prefix, .inl ⟨file, List.mem_cons_self, read⟩⟩
      · obtain ⟨said, front, ⟨other, known, given⟩ | failed⟩ := ih disk later
        · exact ⟨said, front, .inl ⟨other, List.mem_cons_of_mem _ known, given⟩⟩
        · exact ⟨said, front, .inr failed⟩
    · next r read =>
      rcases List.mem_cons.1 h with rfl | later
      · exact ⟨[], List.nil_prefix, .inr ⟨r, List.mem_cons_self, read⟩⟩
      · obtain ⟨said, front, given | ⟨other, known, failed⟩⟩ := ih _ later
        · exact ⟨.record r :: said, List.cons_prefix_cons.2 ⟨rfl, front⟩, .inl given⟩
        · exact ⟨.record r :: said, List.cons_prefix_cons.2 ⟨rfl, front⟩,
            .inr ⟨other, List.mem_cons_of_mem _ known, failed⟩⟩

/-- The survey covers every file that was collected and read. -/
theorem Collected.covers (c : Collected host request) {file : SourceFile}
    (h : file ∈ (c.sources journal).files) : c.plan.surveyor.covers file.path = true := by
  obtain ⟨place, known, path⟩ := exists_place_of_mem_files h
  simp [path, plan, supports_projectPath known]

end CodeGraph.Command
