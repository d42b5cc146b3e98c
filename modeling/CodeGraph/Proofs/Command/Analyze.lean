import CodeGraph.Proofs.Command.Collected

/-!
# An analysis skips no file

What an analysis comes to is settled once, in `analyze_eq_ok`: it gives up, only lists the files, or
surveys those that it has collected; and it does survey them if there are any
(`Collected.analyze_eq`).  So a report names no skipped file, and every file that could be read has
failed or contributes its declarations (`analyze_skips_nothing`).
-/

namespace CodeGraph.Command

open CodeGraph.Files CodeGraph.Ignore CodeGraph.Json

variable {host : Host} {journal : Journal} {request : AnalyzeRequest} {verbose : Bool}
  {result : CommandResult}

/-! ## What a survey delivers -/

/-- A survey that comes to an end delivers a report, or there was no parser. -/
theorem surveyPlaces_eq_ok {output : Option String} {plan : SurveyPlan} {disk : Node}
    {before : List Notice}
    (ok : surveyPlaces host journal verbose output plan disk before = .ok result) :
    (plan.surveyor.tools.unavailable ≠ none ∧ result.output = "" ∧ result.written = []) ∨
    ∃ r after notices,
      (plan.surveyor.run none .empty
        (readSources journal plan.project disk plan.places).files).result = .ok r ∧
      deliver host after output (reportText plan.project r) notices = .ok result := by
  rw [surveyPlaces] at ok
  split at ok
  · next f failed =>
    left
    obtain rfl := Except.ok.inj ok
    refine ⟨fun available => ?_, rfl, rfl⟩
    obtain ⟨r, surveyed⟩ := Surveyor.run_none (s := plan.surveyor) available .empty
      (readSources journal plan.project disk plan.places).files
    cases failed.symm.trans surveyed
  · next r surveyed => exact .inr ⟨r, _, _, surveyed, ok⟩

/-- A survey with a parser puts its report out, if no file is named. -/
theorem exists_surveyPlaces (host : Host) (journal : Journal) (verbose : Bool) {plan : SurveyPlan}
    (available : plan.surveyor.tools.unavailable = none) (disk : Node) (before : List Notice) :
    ∃ r result, surveyPlaces host journal verbose none plan disk before = .ok result ∧
      result.output = reportText plan.project r := by
  obtain ⟨r, surveyed⟩ := Surveyor.run_none (s := plan.surveyor) available .empty
    (readSources journal plan.project disk plan.places).files
  rw [surveyPlaces, surveyed]
  exact ⟨r, _, rfl, rfl⟩

theorem reportText_ne_empty (project : Location) (r : SurveyResult) : reportText project r ≠ "" :=
  append_ne_empty_of_right (by decide) _

/-! ## What an analysis comes to -/

/-- An analysis gives up, or only lists files. -/
inductive Unsurveyed (host : Host) (request : AnalyzeRequest) : Prop
  /-- There is nothing at the path. -/
  | absent {place : Location} (located : host.locate request.path = .ok place)
      (absent : host.present? place = .ok none)
  /-- The settings give an extension a language that there is not. -/
  | refused (p : FoundProject host request) {value : Value}
      (refused : ExtensionTable.standard.extend p.options.extensions = .error value)
  /-- There are no files, or they are only to be listed. -/
  | listed (c : Collected host request) (h : c.places = [] ∨ request.dryRun = true)

/-- An analysis that comes to an end has surveyed the files that it has collected, or there was none
to survey. -/
theorem analyze_eq_ok (ok : analyze host journal verbose request = .ok result) :
    (Unsurveyed host request ∧ result.output = "" ∧ result.written = []) ∨
    ∃ c : Collected host request, c.places ≠ [] ∧
      surveyPlaces host journal verbose request.output c.plan (c.disk journal)
        (c.passedOver journal) = .ok result := by
  simp only [analyze, bind_eq_ok] at ok
  obtain ⟨place, located, node, present, ok⟩ := ok
  cases node with
  | none =>
    obtain rfl := Except.ok.inj ok
    exact .inl ⟨.absent located present, rfl, rfl⟩
  | some node =>
    simp only [analyzePlace, bind_eq_ok] at ok
    obtain ⟨project, found, root, settled, settings, loaded, options, chosen, ok⟩ := ok
    let p : FoundProject host request :=
      ⟨place, project, root, settings, options, located, found, settled, loaded,
        mapError_eq_ok.1 chosen⟩
    split at ok
    · next value refused =>
      obtain rfl := Except.ok.inj ok
      exact .inl ⟨.refused p refused, rfl, rfl⟩
    · next table accepted =>
      obtain ⟨matcher, matched, ok⟩ := bind_eq_ok.1 ok
      obtain ⟨start, startsAt, ok⟩ := bind_eq_ok.1 ok
      obtain ⟨places, searched, ok⟩ := bind_eq_ok.1 ok
      let c : Collected host request :=
        ⟨p, table, matcher, start, places, accepted, matched, startsAt, mapError_eq_ok.1 searched⟩
      by_cases nothing : places.isEmpty = true
      · rw [if_pos nothing] at ok
        obtain rfl := Except.ok.inj ok
        exact .inl ⟨.listed c (.inl (List.isEmpty_iff.1 nothing)), rfl, rfl⟩
      · by_cases dryRun : request.dryRun = true
        · rw [if_neg nothing, if_pos dryRun] at ok
          obtain rfl := Except.ok.inj ok
          exact .inl ⟨.listed c (.inr dryRun), rfl, rfl⟩
        · rw [if_neg nothing, if_neg dryRun] at ok
          exact .inr ⟨c, fun none => nothing (List.isEmpty_iff.2 none), ok⟩

/-- The files that an analysis collects at a path where there is something are surveyed, unless they
are only to be listed. -/
theorem Collected.analyze_eq (c : Collected host request) (journal : Journal) (verbose : Bool)
    {node : Node} (present : host.present? c.place = .ok (some node)) (some : c.places ≠ [])
    (survey : request.dryRun = false) :
    analyze host journal verbose request =
      surveyPlaces host journal verbose request.output c.plan (c.disk journal)
        (c.passedOver journal) := by
  have files : ¬ c.places.isEmpty = true := fun none => some (List.isEmpty_iff.1 none)
  simp only [analyze, analyzePlace, c.located, present, c.found, c.settled, c.loaded,
    mapError_eq_ok.2 c.chosen, c.accepted, c.matched, c.startsAt, mapError_eq_ok.2 c.searched,
    ok_bind, if_neg files, survey, Bool.false_eq_true, if_false]
  rfl

/-! ## What an analysis reports -/

namespace Collected

/-- The result of the survey of the collected files: none of them is skipped, and each of them that
could be read has failed or contributes its declarations. -/
structure SkipsNothing (c : Collected host request) (journal : Journal) (r : SurveyResult) :
    Prop where
  surveyed : (c.plan.surveyor.run none .empty (c.sources journal).files).result = .ok r
  skipped : r.skipped = []
  reported : ("skipped", .list []) ∈ r.report
  /-- Once the records of the files before it have been said, every file is read and reported, or it
  cannot be read and is recorded. -/
  each : ∀ place ∈ c.places, ∃ said, said <+: (c.sources journal).unread ∧
    ((∃ file, readSource (noteEach journal (c.disk journal) said) c.project place = .ok file ∧
      r.Reports c.plan.surveyor (GrammarStore.empty.lack? host.loaders) file) ∨
    ∃ record, readSource (noteEach journal (c.disk journal) said) c.project place = .error record ∧
      .record record ∈ (c.sources journal).unread)

theorem skipsNothing (c : Collected host request) {r : SurveyResult}
    (ok : (c.plan.surveyor.run none .empty (c.sources journal).files).result = .ok r) :
    c.SkipsNothing journal r := by
  have none : r.skipped = [] := by
    have accounts := accounts_of (s := c.plan.surveyor) .empty (c.sources journal).files
    obtain ⟨-, rfl⟩ := Surveyor.run_eq_ok ok
    exact accounts.skipped_eq_nil fun file h => c.covers h
  refine ⟨ok, none, ?_, fun place h => ?_⟩
  · rw [SurveyResult.report, none]
    simp
  · obtain ⟨said, front, ⟨file, read, given⟩ | ⟨record, known, failed⟩⟩ :=
      exists_said journal c.project (c.disk journal) h
    · exact ⟨said, front, .inl ⟨file, given, Surveyor.run_reports ok read (c.covers read)⟩⟩
    · exact ⟨said, front, .inr ⟨record, failed, known⟩⟩

end Collected

/-- A file whose name has a supported extension is of the same language in every folder.  So an
analysis surveys only files that the survey covers; if it delivers a report, no file is skipped, and
every collected file that could be read has failed or contributes its declarations. -/
theorem analyze_skips_nothing :
    (∀ (mapping : Members) (table : ExtensionTable) (folder name : String),
      ExtensionTable.standard.extend mapping = .ok table → table.supports name = true →
        table.language (folder ++ "/" ++ name) = table.language name ∧
          table.language name ≠ none) ∧
    ∀ (host : Host) (journal : Journal) (verbose : Bool) (request : AnalyzeRequest)
      (result : CommandResult), analyze host journal verbose request = .ok result →
        (Unsurveyed host request ∧ result.output = "" ∧ result.written = []) ∨
        ∃ c : Collected host request, c.places ≠ [] ∧
          (∀ file ∈ (c.sources journal).files, c.plan.surveyor.covers file.path = true) ∧
          ((host.unavailable ≠ none ∧ result.output = "" ∧ result.written = []) ∨
            ∃ r disk notices, c.SkipsNothing journal r ∧
              deliver host disk request.output (reportText c.project r) notices = .ok result) := by
  constructor
  · intro mapping table folder name accepted supported
    refine ⟨?_, Option.isSome_iff_ne_none.1 supported⟩
    exact (ExtensionTable.isProper_standard.extend accepted).language_folder supported folder
  · intro host journal verbose request result ok
    refine (analyze_eq_ok ok).imp_right fun ⟨c, files, surveyed⟩ =>
      ⟨c, files, fun file h => c.covers h, ?_⟩
    rcases surveyPlaces_eq_ok surveyed with silent | ⟨r, disk, notices, run, delivered⟩
    · exact .inl silent
    · exact .inr ⟨r, disk, notices, c.skipsNothing run, delivered⟩

/-- A disk with one file, whose name has a backslash and capitals in its extension. -/
def lonelyDisk : Node := .folder [("lib\\a.PY", .file [49])]

/-- A command runs beside that file. -/
def lonelyHost : Host :=
  ⟨lonelyDisk, [], ["home"], fun _ => none, gitignore, .standard, bareRoots.tools.parser, none, ""⟩

/-- The folder in which the command runs is to be analyzed. -/
def hereRequest : AnalyzeRequest := ⟨".", none, none, false, false⟩

/-- A rule that excludes the folders of a name. -/
def folderRule (name : String) : Rule :=
  .ofPattern false (.path [.folders, .glob (name.toList.map .one), .folders])

theorem isTree_lonelyDisk : lonelyDisk.IsTree := ⟨by decide, by decide⟩

theorem settled_lonelyHost : lonelyHost.settled [] = .ok [] :=
  mapError_eq_ok.2 (isTree_lonelyDisk.resolvePlace_eq (List.forall_mem_nil _))

theorem present_lonelyHost : lonelyHost.present? [] = .ok (some lonelyDisk) :=
  mapError_eq_ok.2 (isTree_lonelyDisk.opens rfl (by decide)).found

/-- The analysis collects the file. -/
def lonelyFile : Collected lonelyHost hereRequest where
  place := []
  project := []
  root := []
  settings := .object Settings.standard
  options := ⟨1, false, []⟩
  located := by
    have path : resolvePath lonelyDisk [] "." = resolvePlace lonelyDisk [] := rfl
    have located : resolvePath lonelyDisk [] "." = .ok [] :=
      path.trans (mapError_eq_ok.1 settled_lonelyHost)
    exact bind_eq_ok.2 ⟨[], mapError_eq_ok.2 located, settled_lonelyHost⟩
  found := by
    simp only [projectOf, settled_lonelyHost, present_lonelyHost, ok_bind]
    rfl
  settled := settled_lonelyHost
  loaded := by
    have user : content? lonelyDisk (Host.settingsPlace ["home"]) = .ok none :=
      content?_of_missing (by decide) rfl (by decide) (by decide)
    have project : content? lonelyDisk (Host.settingsPlace []) = .ok none :=
      content?_of_missing (by decide) rfl (by decide) (by decide)
    have nothing : Settings.load (.ok none) (.ok none) = .ok Settings.standard := rfl
    simp only [Host.settings, lonelyHost, user, project, nothing, Option.map_some, Option.getD_some]
  chosen := rfl
  table := .standard
  matcher := gitignore.matcher ([".git", "node_modules", ".repograph"].map folderRule)
  start := []
  places := [["lib\\a.PY"]]
  accepted := rfl
  matched := by
    have own : content? lonelyDisk ([] ++ [ownFileName]) = .ok none :=
      content?_of_missing (by decide) rfl (by decide) (by decide)
    have shared : content? lonelyDisk ([] ++ [sharedFileName]) = .ok none :=
      content?_of_missing (by decide) rfl (by decide) (by decide)
    rw [projectMatcher, lonelyHost, own, shared]
    cbv
  startsAt := settled_lonelyHost
  searched := sourceFiles_singleton (mapError_eq_ok.1 present_lonelyHost) (by decide +kernel)

/-- A log without a file. -/
def quietJournal : Journal := ⟨⟨.info, none⟩, none, ""⟩

/-- A name with a backslash and a dot in front is supported in every folder, and the analysis of the
file delivers a report in which no file is skipped. -/
theorem analyze_skips_nothing_backslash :
    (∃ table, ExtensionTable.standard.extend [("PYX", .text "python")] = .ok table ∧
      table.supports "lib\\.a.Pyx" = true ∧
      table.language ("src" ++ "/" ++ "lib\\.a.Pyx") = table.language "lib\\.a.Pyx" ∧
      table.language "lib\\.a.Pyx" ≠ none) ∧
    ∃ result, analyze lonelyHost quietJournal false hereRequest = .ok result ∧ result.output ≠ "" ∧
      ∃ (c : Collected lonelyHost hereRequest) (r : SurveyResult),
        c.places ≠ [] ∧ c.SkipsNothing quietJournal r := by
  constructor
  · have accepted : ExtensionTable.standard.extend [("PYX", .text "python")] =
        .ok (ExtensionTable.standard.set "PYX" .python) := rfl
    have supported : (ExtensionTable.standard.set "PYX" .python).supports "lib\\.a.Pyx" = true := by
      decide +kernel
    exact ⟨_, accepted, supported, analyze_skips_nothing.1 _ _ "src" _ accepted supported⟩
  · have surveys := lonelyFile.analyze_eq quietJournal false present_lonelyHost
      (List.cons_ne_nil _ _) rfl
    have available : lonelyFile.plan.surveyor.tools.unavailable = none := rfl
    obtain ⟨r, result, ok, output⟩ := exists_surveyPlaces lonelyHost quietJournal false available
      (lonelyFile.disk quietJournal) (lonelyFile.passedOver quietJournal)
    have delivered : result.output ≠ "" := output ▸ reportText_ne_empty lonelyFile.project r
    have analyzed := surveys.trans ok
    refine ⟨result, analyzed, delivered, ?_⟩
    rcases analyze_skips_nothing.2 _ _ _ _ _ analyzed with
      ⟨-, silent, -⟩ | ⟨c, files, -, ⟨-, silent, -⟩ | ⟨r, -, -, skips, -⟩⟩
    · exact absurd silent delivered
    · exact absurd silent delivered
    · exact ⟨c, r, files, skips⟩

end CodeGraph.Command
