import CodeGraph.Proofs.Survey.Order

/-!
# Strict surveys

A strict survey refuses the files whose trees have errors.  It ends like the lenient survey of the
same files, and if both give a result the strict one is the lenient one without the declarations of
the refused files, which have failed; nothing changes for the other files (`run_strict`).
-/

namespace CodeGraph

/-- The toolbox that refuses trees with errors, or the one that takes them. -/
def Toolbox.withStrict (tools : Toolbox) (strict : Bool) : Toolbox := { tools with strict }

/-- Strictly parsed, a file is what it is else, unless its tree has an error. -/
theorem Toolbox.parsed_strict (tools : Toolbox) (lack? : String → Option Fault)
    (path content : String) :
    (tools.withStrict true).parsed lack? path content =
      match (tools.withStrict false).parsed lack? path content with
      | .error f => .error f
      | .ok file =>
        if file.hasError then .error (.unparsable path "syntax errors in source")
        else .ok file := by
  unfold parsed withStrict
  cases tools.table.language path with
  | none => rfl
  | some language =>
    dsimp only
    cases lack? (ExtensionTable.grammarOf language path) with
    | some f => rfl
    | none =>
      cases tools.parser (ExtensionTable.grammarOf language path) content with
      | broken reason => rfl
      | nothing => rfl
      | tree root hasError => cases hasError <;> rfl

namespace Surveyor

variable (s : Surveyor)

/-- The survey that refuses trees with errors, or the one that takes them. -/
def withStrict (strict : Bool) : Surveyor := { s with tools := s.tools.withStrict strict }

/-- The file can be parsed, but its tree has an error. -/
def isFlawed (lack? : String → Option Fault) (file : SourceFile) : Bool :=
  match (s.tools.withStrict false).parsed lack? file.path file.content with
  | .error _ => false
  | .ok parsed => parsed.hasError

/-- The paths of the files whose trees have errors. -/
def flawedPaths (lack? : String → Option Fault) (files : List SourceFile) : List String :=
  (files.filter (s.isFlawed lack?)).map SourceFile.path

/-- Surveys that end with the same fault, or with results of which the second one is the first one
without the files whose trees have errors. -/
inductive Refuses (lack? : String → Option Fault) (files : List SourceFile) :
    Except Fault SurveyResult → Except Fault SurveyResult → Prop where
  | fault (f : Fault) : Refuses lack? files (.error f) (.error f)
  | result {r r' : SurveyResult}
      (declarations : r'.declarations =
        r.declarations.filter fun d => d.path ∉ s.flawedPaths lack? files)
      (refused : ∀ file ∈ files, s.supports file.path = true → s.isFlawed lack? file = true →
        ⟨file.path, "Failed to parse " ++ file.path ++ ": syntax errors in source"⟩ ∈ r'.failures)
      (others : ∀ file ∈ files, (s.supports file.path = true → s.isFlawed lack? file = false) →
        ∀ reason, ⟨file.path, reason⟩ ∈ r'.failures ↔ ⟨file.path, reason⟩ ∈ r.failures)
      (skipped : r'.skipped = r.skipped)
      (fileCount : r'.fileCount = r.fileCount) : Refuses lack? files (.ok r) (.ok r')

variable {s} {lack? : String → Option Fault} {files : List SourceFile} {file : SourceFile}

/-! ## One file -/

theorem message_flawed (path : String) :
    (Fault.unparsable path "syntax errors in source").message =
      "Failed to parse " ++ path ++ ": syntax errors in source" := by
  have words : ": " ++ "syntax errors in source" = ": syntax errors in source" := by decide +kernel
  rw [← words, ← String.append_assoc]
  rfl

theorem outcome_strict_of_flawed (supported : s.supports file.path = true)
    (flawed : s.isFlawed lack? file = true) :
    (s.withStrict true).outcome lack? file =
        .unparsed (.unparsable file.path "syntax errors in source") ∧
      ((s.withStrict false).outcome lack? file).isSkipped = false := by
  obtain ⟨reader, known⟩ := Option.isSome_iff_exists.1 supported
  have reads (strict : Bool) : (s.withStrict strict).reader? file.path = some reader := known
  unfold isFlawed at flawed
  unfold outcome
  rw [reads, reads]
  cases parsed : (s.tools.withStrict false).parsed lack? file.path file.content with
  | error f =>
    rw [parsed] at flawed
    cases flawed
  | ok tree =>
    have strict := s.tools.parsed_strict lack? file.path file.content
    rw [parsed] at flawed strict
    simp only [flawed, if_true] at strict
    simp only [withStrict, strict, parsed, outcomeOf, true_and]
    cases reader.run tree <;> rfl

theorem outcome_strict_of_sound (sound : s.isFlawed lack? file = false) :
    (s.withStrict true).outcome lack? file = (s.withStrict false).outcome lack? file := by
  have same : (s.tools.withStrict true).parsed lack? file.path file.content =
      (s.tools.withStrict false).parsed lack? file.path file.content := by
    rw [Toolbox.parsed_strict]
    unfold isFlawed at sound
    cases parsed : (s.tools.withStrict false).parsed lack? file.path file.content with
    | error f => rfl
    | ok tree =>
      rw [parsed] at sound
      simp only [sound, Bool.false_eq_true, if_false]
  unfold outcome
  simp only [withStrict, same]
  rfl

theorem outcome_of_unsupported (unsupported : s.supports file.path = false) (strict : Bool) :
    (s.withStrict strict).outcome lack? file = .skipped := by
  have missing : s.reader? file.path = none := by
    simpa [supports, Option.isSome_eq_false_iff] using unsupported
  have reads : (s.withStrict strict).reader? file.path = none := missing
  rw [outcome, reads]

theorem outcome_strict_of_kept
    (kept : s.supports file.path = true → s.isFlawed lack? file = false) :
    (s.withStrict true).outcome lack? file = (s.withStrict false).outcome lack? file := by
  cases supported : s.supports file.path with
  | false => rw [outcome_of_unsupported supported, outcome_of_unsupported supported]
  | true => exact outcome_strict_of_sound (kept supported)

theorem isSkipped_outcome_strict (lack? : String → Option Fault) (file : SourceFile) :
    ((s.withStrict true).outcome lack? file).isSkipped =
      ((s.withStrict false).outcome lack? file).isSkipped := by
  by_cases kept : s.supports file.path = true → s.isFlawed lack? file = false
  · rw [outcome_strict_of_kept kept]
  · obtain ⟨supported, flawed⟩ := Classical.not_imp.1 kept
    obtain ⟨refused, taken⟩ :=
      outcome_strict_of_flawed supported (Bool.eq_true_of_not_eq_false flawed)
    rw [refused, taken]
    rfl

/-- A flawed file declares nothing in a strict survey. -/
theorem declarations_outcome_strict (file : SourceFile) :
    ((s.withStrict true).outcome lack? file).declarations =
      if s.isFlawed lack? file then []
      else ((s.withStrict false).outcome lack? file).declarations := by
  cases flawed : s.isFlawed lack? file with
  | false => exact congrArg Outcome.declarations (outcome_strict_of_sound flawed)
  | true =>
    cases supported : s.supports file.path with
    | false => rw [outcome_of_unsupported supported]; rfl
    | true => rw [(outcome_strict_of_flawed supported flawed).1]; rfl

/-! ## All files -/

theorem mem_flawedPaths (distinct : (files.map SourceFile.path).Nodup) (hfile : file ∈ files) :
    file.path ∈ s.flawedPaths lack? files ↔ s.isFlawed lack? file = true := by
  unfold flawedPaths
  constructor
  · intro h
    obtain ⟨other, hother, path⟩ := List.mem_map.1 h
    obtain ⟨mem, flawed⟩ := List.mem_filter.1 hother
    rwa [← List.inj_on_of_nodup_map distinct mem hfile path]
  · intro flawed
    exact List.mem_map_of_mem (List.mem_filter.2 ⟨hfile, flawed⟩)

theorem declared_strict (own : s.readers.KeepPaths)
    (distinct : (files.map SourceFile.path).Nodup) :
    (s.withStrict true).declared lack? files =
      ((s.withStrict false).declared lack? files).filter fun d =>
        d.path ∉ s.flawedPaths lack? files := by
  unfold declared
  rw [List.filter_flatMap]
  refine List.flatMap_congr fun file hfile => ?_
  have one : ∀ d ∈ ((s.withStrict false).outcome lack? file).declarations, d.path = file.path :=
    fun d hd => path_of_mem_outcome (s := s.withStrict false) own hd
  rw [declarations_outcome_strict]
  split_ifs with flawed
  · refine (List.filter_eq_nil_iff.2 fun d hd kept => ?_).symm
    rw [one d hd] at kept
    exact of_decide_eq_true kept ((mem_flawedPaths distinct hfile).2 flawed)
  · refine (List.filter_eq_self.2 fun d hd => decide_eq_true ?_).symm
    rw [one d hd]
    exact fun mem => flawed ((mem_flawedPaths distinct hfile).1 mem)

/-- A file whose declarations have an id of another file has its path. -/
theorem path_eq_of_id_eq (own : s.readers.KeepPaths)
    (plain : ∀ file ∈ files, ':' ∉ file.path.toList) {d e : Declaration}
    (hd : d ∈ s.declared lack? files) (he : e ∈ s.declared lack? files) (h : d.id = e.id) :
    d.path = e.path := by
  obtain ⟨file, hfile, path⟩ := exists_file_of_mem_declared own hd
  obtain ⟨other, hother, path'⟩ := exists_file_of_mem_declared own he
  exact (declarationId_inj (path ▸ plain file hfile) (path' ▸ plain other hother) h).1

theorem mem_failuresOf_outcomes (distinct : (files.map SourceFile.path).Nodup)
    (hfile : file ∈ files) {reason : String} :
    ⟨file.path, reason⟩ ∈ failuresOf (s.outcomes lack? files) ↔
      ∃ f, (s.outcome lack? file).fault? = some f ∧ f.message = reason := by
  unfold failuresOf outcomes
  rw [List.mem_filterMap]
  constructor
  · rintro ⟨o, ho, h⟩
    obtain ⟨other, mem, rfl⟩ := List.mem_map.1 ho
    obtain ⟨f, fault, same⟩ := Option.map_eq_some_iff.1 h
    obtain ⟨path, message⟩ := FileFailure.mk.inj same
    obtain rfl := List.inj_on_of_nodup_map distinct mem hfile path
    exact ⟨f, fault, message⟩
  · rintro ⟨f, fault, rfl⟩
    exact ⟨_, List.mem_map_of_mem hfile, Option.map_eq_some_iff.2 ⟨f, fault, rfl⟩⟩

theorem refuses_of (own : s.readers.KeepPaths) (distinct : (files.map SourceFile.path).Nodup)
    (plain : ∀ file ∈ files, ':' ∉ file.path.toList) :
    s.Refuses lack? files
      (.ok (.of s.table files ((s.withStrict false).outcomes lack? files)))
      (.ok (.of s.table files ((s.withStrict true).outcomes lack? files))) := by
  constructor
  · dsimp only [SurveyResult.of]
    rw [declarationsOf_outcomes_eq, declarationsOf_outcomes_eq, declared_strict own distinct]
    refine withoutRepeats_filter Declaration.id fun d hd e he same => ?_
    rw [path_eq_of_id_eq (s := s.withStrict false) own plain hd he same]
  · intro file hfile supported flawed
    dsimp only [SurveyResult.of]
    rw [mem_failuresOf_outcomes distinct hfile, (outcome_strict_of_flawed supported flawed).1]
    exact ⟨_, rfl, message_flawed file.path⟩
  · intro file hfile kept reason
    dsimp only [SurveyResult.of]
    rw [mem_failuresOf_outcomes distinct hfile, mem_failuresOf_outcomes distinct hfile,
      outcome_strict_of_kept kept]
  · dsimp only [SurveyResult.of]
    unfold skippedOf outcomes
    rw [List.filter_map, List.filter_map, List.map_map, List.map_map]
    have same := List.filter_congr fun file (_ : file ∈ files) =>
      isSkipped_outcome_strict (s := s) lack? file
    exact congrArg (List.map SourceFile.path) same
  · rfl

/-- A strict survey ends like the lenient one, and only leaves out the files whose trees have
errors. -/
theorem run_strict (own : s.readers.KeepPaths) (signal : Option Signal) (store : GrammarStore)
    (distinct : (files.map SourceFile.path).Nodup)
    (plain : ∀ file ∈ files, ':' ∉ file.path.toList) :
    s.Refuses (store.lack? s.tools.loaders) files
      ((s.withStrict false).run signal store files).result
      ((s.withStrict true).run signal store files).result := by
  rcases hprepare : store.prepare s.tools.unavailable with ⟨f | _, after⟩
  · have result (strict : Bool) :
        ((s.withStrict strict).run signal store files).result = .error f :=
      congrArg Prod.fst (run_of_unprepared (s := s.withStrict strict) hprepare)
    rw [result, result]
    exact .fault f
  · have result (strict : Bool) : ((s.withStrict strict).run signal store files).result =
        ((s.withStrict strict).observed signal (store.lack? s.tools.loaders) files).1 :=
      congrArg Prod.fst (run_of_prepared (s := s.withStrict strict) hprepare)
    rw [result, result, observed, observed]
    -- the course depends on the number of files only, so both surveys are cancelled alike
    have same : (s.withStrict true).course signal files.length =
      (s.withStrict false).course signal files.length := rfl
    rw [same]
    dsimp only
    cases ((s.withStrict false).course signal files.length).1 with
    | error stage => exact .fault _
    | ok _ => exact refuses_of own distinct plain

/-- A survey whose parser meets an error in the second of the partners. -/
def wary : Surveyor :=
  let tools := (seeing callingTree).tools
  { seeing callingTree with
    tools := { tools with
      parser := fun _ content => .tree callingTree (content = "function g1()\x7bf1()\x7d") } }

/-- The lenient survey finds both functions, the strict one only that of the file without errors. -/
theorem run_strict_wary :
    ∃ r r', ((wary.withStrict false).run none .empty partners).result = .ok r ∧
      ((wary.withStrict true).run none .empty partners).result = .ok r' ∧
      wary.Refuses (GrammarStore.lack? .standard .empty) partners (.ok r) (.ok r') ∧
      r.declarations.map Declaration.id = ["f.js:1:f1", "g.js:1:g1"] ∧ r.failures = [] ∧
      r'.declarations.map Declaration.id = ["f.js:1:f1"] ∧
      r'.failures = [⟨"g.js", "Failed to parse g.js: syntax errors in source"⟩] := by
  obtain ⟨r, ok⟩ := run_none (s := wary.withStrict false) rfl .empty partners
  obtain ⟨r', ok'⟩ := run_none (s := wary.withStrict true) rfl .empty partners
  have refuses : wary.Refuses _ partners _ _ :=
    run_strict keepPaths_standard none .empty (by decide) (by decide)
  rw [ok, ok'] at refuses
  obtain ⟨-, rfl⟩ := run_eq_ok ok
  obtain ⟨-, rfl⟩ := run_eq_ok ok'
  exact ⟨_, _, ok, ok', refuses, by decide +kernel, by decide +kernel, by decide +kernel,
    by decide +kernel⟩

end Surveyor

end CodeGraph
