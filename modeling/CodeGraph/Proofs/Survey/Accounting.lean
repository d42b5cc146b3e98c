import CodeGraph.Proofs.Repeats
import CodeGraph.Proofs.Survey.Outcomes

/-!
# Every file is accounted for

A file has one of four fates (`Surveyor.Fate`): it is skipped, cannot be parsed, cannot be read, or
contributes its declarations.  A run that can make a parser and is not cancelled gives a result in
which every file appears by its fate, once and in its place (`accounts_for_every_file`).  A file
that is covered has failed, or what its reader finds counts (`Surveyor.run_reports`).
-/

namespace CodeGraph

/-! ## What is said about a fault -/

theorem append_ne_empty {text : String} (h : text ≠ "") (rest : String) : text ++ rest ≠ "" :=
  fun empty => h (String.append_eq_empty_iff.1 empty).1

theorem Fault.withReason_ne_empty {message : String} (h : message ≠ "") (reason : String) :
    Fault.withReason message reason ≠ "" := by
  unfold withReason
  split_ifs
  · exact h
  · exact append_ne_empty (append_ne_empty h _) _

theorem append_ne_empty_of_right {text : String} (h : text ≠ "") (front : String) :
    front ++ text ≠ "" :=
  fun empty => h (String.append_eq_empty_iff.1 empty).2

/-- Something is said about every fault. -/
theorem Fault.message_ne_empty (f : Fault) : f.message ≠ "" := by
  cases f with
  | unsupportedFile path => exact append_ne_empty (by decide) _
  | grammarUnavailable grammar reason =>
    exact withReason_ne_empty (append_ne_empty (append_ne_empty (by decide) _) _) reason
  | unparsable path reason => exact withReason_ne_empty (append_ne_empty (by decide) _) reason
  | unreadable reader path reason =>
    have named : reader ++ " failed on " ≠ "" := append_ne_empty_of_right (by decide) reader
    exact append_ne_empty (append_ne_empty (append_ne_empty named _) _) _
  | parsingUnavailable reason => exact append_ne_empty (by decide) _
  | cancelled stage => exact append_ne_empty (by decide) _

/-! ## Fates -/

/-- The declarations of a file could be read. -/
def Outcome.isDeclared : Outcome → Bool
  | declared _ => true
  | skipped => false
  | unparsed _ => false
  | unread _ => false

/-- A file is skipped, has failed, or contributes, and only one of these. -/
theorem Outcome.one_of_three (o : Outcome) :
    o.isSkipped.toNat + o.fault?.isSome.toNat + o.isDeclared.toNat = 1 := by
  cases o <;> rfl

namespace Surveyor

variable (s : Surveyor)

/-- The table and the readers of the survey and the table of the tools cover the path. -/
def covers (path : String) : Bool := s.supports path && s.tools.table.supports path

/-- What becomes of a file, with the grammars that can be had. -/
inductive Fate (lack? : String → Option Fault) (file : SourceFile) : Outcome → Prop where
  /-- The path is not covered. -/
  | skipped (uncovered : s.covers file.path = false) : Fate lack? file .skipped
  /-- The grammar cannot be had, or the parser gives no tree, or not one that is accepted. -/
  | unparsed {f : Fault} (covered : s.covers file.path = true)
      (parsed : s.tools.parsed lack? file.path file.content = .error f) :
      Fate lack? file (.unparsed f)
  /-- The reader breaks down. -/
  | unread {reader : Reader} {parsedFile : ParsedFile} {reason : String}
      (covered : s.covers file.path = true) (reads : s.reader? file.path = some reader)
      (parsed : s.tools.parsed lack? file.path file.content = .ok parsedFile)
      (read : reader.read parsedFile = .error reason) :
      Fate lack? file (.unread (.unreadable reader.title file.path reason))
  /-- The reader finds declarations, of which the first of every id count. -/
  | declared {reader : Reader} {parsedFile : ParsedFile} {ds : List Declaration}
      (covered : s.covers file.path = true) (reads : s.reader? file.path = some reader)
      (parsed : s.tools.parsed lack? file.path file.content = .ok parsedFile)
      (read : reader.read parsedFile = .ok ds) :
      Fate lack? file (.declared (distinctDeclarations ds))

variable {s}

theorem accept_ne_unsupportedFile {strict : Bool} {path content grammar other : String}
    {language : Language} {answer : ParseAnswer} :
    GrammarStore.accept strict path content language grammar answer ≠
      .error (.unsupportedFile other) := by
  cases answer with
  | broken reason => simp [GrammarStore.accept]
  | nothing => simp [GrammarStore.accept]
  | tree root hasError => cases strict <;> cases hasError <;> simp [GrammarStore.accept]

theorem lack?_ne_unsupportedFile (loaders : LoaderTable) (store : GrammarStore)
    (grammar path : String) :
    store.lack? loaders grammar ≠ some (.unsupportedFile path) := by
  unfold GrammarStore.lack?
  split <;> simp

theorem parsed_of_not_supports {tools : Toolbox} {lack? : String → Option Fault}
    {path content : String} (h : tools.table.supports path = false) :
    tools.parsed lack? path content = .error (.unsupportedFile path) := by
  have unknown : tools.table.language path = none := by
    simpa [ExtensionTable.supports] using h
  rw [Toolbox.parsed, unknown]

/-- Only a path without a language is unsupported. -/
theorem parsed_ne_unsupportedFile {tools : Toolbox} {store : GrammarStore}
    {path content other : String} (h : tools.table.supports path = true) :
    tools.parsed (store.lack? tools.loaders) path content ≠ .error (.unsupportedFile other) := by
  obtain ⟨language, known⟩ := Option.isSome_iff_exists.1 h
  rw [Toolbox.parsed, known]
  dsimp only
  cases hlack : store.lack? tools.loaders (ExtensionTable.grammarOf language path) with
  | some f =>
    rintro same
    rw [Except.error.inj same] at hlack
    exact lack?_ne_unsupportedFile _ _ _ _ hlack
  | none => exact accept_ne_unsupportedFile

/-- The outcome of a file is its fate. -/
theorem fate_outcome (store : GrammarStore) (file : SourceFile) :
    s.Fate (store.lack? s.tools.loaders) file (s.outcome (store.lack? s.tools.loaders) file) := by
  unfold outcome
  cases hreader : s.reader? file.path with
  | none => exact .skipped (by simp [covers, supports, hreader])
  | some reader =>
    cases known : s.tools.table.supports file.path with
    | false =>
      rw [parsed_of_not_supports known]
      exact .skipped (by simp [covers, known])
    | true =>
      have covered : s.covers file.path = true := by simp [covers, supports, hreader, known]
      have supported (path : String) :
          s.tools.parsed (store.lack? s.tools.loaders) file.path file.content ≠
            .error (.unsupportedFile path) := parsed_ne_unsupportedFile known
      cases hparsed : s.tools.parsed (store.lack? s.tools.loaders) file.path file.content with
      | error f =>
        rw [hparsed] at supported
        cases f with
        | unsupportedFile path => exact absurd rfl (supported path)
        | _ => exact .unparsed covered hparsed
      | ok parsedFile =>
        simp only [outcomeOf, Reader.run]
        cases hread : reader.read parsedFile with
        | ok ds => exact .declared covered hreader hparsed hread
        | error reason =>
          rw [(Toolbox.parsed_eq_ok hparsed).1]
          exact .unread covered hreader hparsed hread

theorem Fate.isSkipped_iff {lack? : String → Option Fault} {file : SourceFile} {o : Outcome}
    (h : s.Fate lack? file o) : o.isSkipped = !s.covers file.path := by
  cases h with
  | skipped uncovered => simp [Outcome.isSkipped, uncovered]
  | unparsed covered _ => simp [Outcome.isSkipped, covered]
  | unread covered _ _ _ => simp [Outcome.isSkipped, covered]
  | declared covered _ _ _ => simp [Outcome.isSkipped, covered]

end Surveyor

/-! ## The lists of a result -/

theorem skippedOf_outcomes {s : Surveyor} {lack? : String → Option Fault} {files : List SourceFile}
    (h : ∀ file, s.Fate lack? file (s.outcome lack? file)) :
    skippedOf (s.outcomes lack? files) =
      (files.filter fun file => !s.covers file.path).map SourceFile.path := by
  rw [skippedOf, Surveyor.outcomes, List.filter_map, List.map_map]
  congr 1
  refine List.filter_congr fun file _ => ?_
  exact (h file).isSkipped_iff

theorem length_skippedOf (outcomes : List FileOutcome) :
    (skippedOf outcomes).length = outcomes.countP fun o => o.outcome.isSkipped := by
  rw [skippedOf, List.length_map, List.countP_eq_length_filter]

theorem length_failuresOf (outcomes : List FileOutcome) :
    (failuresOf outcomes).length = outcomes.countP fun o => o.outcome.fault?.isSome := by
  rw [failuresOf, List.length_filterMap_eq_countP]
  simp only [Option.isSome_map]

theorem length_eq_skipped_add_failed_add_declared (outcomes : List FileOutcome) :
    outcomes.length = (skippedOf outcomes).length + (failuresOf outcomes).length +
      outcomes.countP fun o => o.outcome.isDeclared := by
  rw [length_skippedOf, length_failuresOf]
  induction outcomes with
  | nil => rfl
  | cons o rest ih =>
    have one := o.outcome.one_of_three
    have counted (b : Bool) : (if b then 1 else 0) = b.toNat := by cases b <;> rfl
    simp only [List.length_cons, List.countP_cons, ih, counted]
    omega

theorem reason_ne_empty {outcomes : List FileOutcome} {failure : FileFailure}
    (h : failure ∈ failuresOf outcomes) : failure.reason ≠ "" := by
  obtain ⟨o, -, ho⟩ := List.mem_filterMap.1 h
  obtain ⟨f, -, rfl⟩ := Option.map_eq_some_iff.1 ho
  exact f.message_ne_empty

/-! ## Accounts -/

/-- The result accounts for every file by its fate, once and in the order of the files. -/
structure SurveyResult.Accounts (r : SurveyResult) (s : Surveyor) (lack? : String → Option Fault)
    (files : List SourceFile) (fates : List Outcome) : Prop where
  /-- Every file has its fate. -/
  fated : List.Forall₂ (s.Fate lack?) files fates
  /-- Every fate is one of three. -/
  exclusive : ∀ fate ∈ fates,
    fate.isSkipped.toNat + fate.fault?.isSome.toNat + fate.isDeclared.toNat = 1
  /-- The files that are not covered are skipped. -/
  skipped : r.skipped = (files.filter fun file => !s.covers file.path).map SourceFile.path
  /-- The files with faults have failed. -/
  failures : r.failures = (files.zip fates).filterMap fun (file, fate) =>
    fate.fault?.map fun f => ⟨file.path, f.message⟩
  reasons : ∀ failure ∈ r.failures, failure.reason ≠ ""
  /-- The other files contribute what was read. -/
  declarations : r.declarations = distinctDeclarations (fates.flatMap Outcome.declarations)
  fileCount : r.fileCount = files.length
  sum : r.fileCount = r.skipped.length + r.failures.length + fates.countP Outcome.isDeclared

theorem accounts_of {s : Surveyor} (store : GrammarStore) (files : List SourceFile) :
    (SurveyResult.of s.table files
        (s.outcomes (store.lack? s.tools.loaders) files)).Accounts s
      (store.lack? s.tools.loaders) files
      (files.map (s.outcome (store.lack? s.tools.loaders))) where
  fated := List.forall₂_map_right_iff.2 <| List.forall₂_same.2 fun file _ =>
    Surveyor.fate_outcome store file
  exclusive fate _ := fate.one_of_three
  skipped := skippedOf_outcomes (Surveyor.fate_outcome store)
  failures := by
    have paired (f : SourceFile → Outcome) :
        files.zip (files.map f) = files.map fun file => (file, f file) := by
      rw [← List.zip_map', List.map_id']
    rw [SurveyResult.of, failuresOf, Surveyor.outcomes, paired, List.filterMap_map,
      List.filterMap_map]
    rfl
  reasons _ := reason_ne_empty
  declarations := by
    rw [SurveyResult.of, declarationsOf, Surveyor.outcomes, List.flatMap_map, List.flatMap_map]
  fileCount := rfl
  sum := by
    have counted := length_eq_skipped_add_failed_add_declared
      (s.outcomes (store.lack? s.tools.loaders) files)
    rw [Surveyor.length_outcomes, Surveyor.outcomes, List.countP_map] at counted
    rw [List.countP_map]
    exact counted

/-- A survey without a cancel signal for which a parser can be made gives a result, and the result
accounts for every file. -/
theorem accounts_for_every_file {s : Surveyor} (h : s.tools.unavailable = none)
    (store : GrammarStore) (files : List SourceFile) :
    ∃ r fates, (s.run none store files).result = .ok r ∧
      r.Accounts s (store.lack? s.tools.loaders) files fates := by
  obtain ⟨r, ok⟩ := Surveyor.run_none h store files
  obtain ⟨-, rfl⟩ := Surveyor.run_eq_ok ok
  exact ⟨_, _, ok, accounts_of store files⟩

/-- A survey with all grammars and readers, whose parser gives a bare root for every text but the
empty one. -/
def bareRoots : Surveyor :=
  let root : Tree := .node ⟨"program", true, 0, 0, none⟩ []
  let parser : Parser := fun _ text => if text = "" then .nothing else .tree root false
  ⟨⟨.standard, .standard, parser, none, false⟩, .standard, .standard, 1⟩

/-- A file without a language, one that the parser does not take, and one that is read. -/
def mixedFiles : List SourceFile := [⟨"a.txt", ""⟩, ⟨"b.py", ""⟩, ⟨"c.js", "1"⟩]

theorem accounts_for_every_file_mixedFiles :
    ∃ r fates, (bareRoots.run none .empty mixedFiles).result = .ok r ∧
      r.Accounts bareRoots (GrammarStore.empty.lack? bareRoots.tools.loaders) mixedFiles fates ∧
      r.skipped = ["a.txt"] ∧
      r.failures = [⟨"b.py", "Failed to parse b.py: parser returned no tree"⟩] := by
  obtain ⟨r, fates, ok, accounts⟩ :=
    accounts_for_every_file (s := bareRoots) rfl .empty mixedFiles
  obtain ⟨-, rfl⟩ := Surveyor.run_eq_ok ok
  exact ⟨_, fates, ok, accounts, by decide +kernel, by decide +kernel⟩

/-! ## What a result reports about a file -/

/-- The file has failed, or all that its reader finds counts, the first of every id. -/
def SurveyResult.Reports (r : SurveyResult) (s : Surveyor) (lack? : String → Option Fault)
    (file : SourceFile) : Prop :=
  (∃ reason, ⟨file.path, reason⟩ ∈ r.failures) ∨
    ∃ ds, s.Fate lack? file (.declared ds) ∧ ∀ d ∈ ds, ∃ kept ∈ r.declarations, kept.id = d.id

/-- Where the survey covers all files, none is skipped. -/
theorem SurveyResult.Accounts.skipped_eq_nil {r : SurveyResult} {s : Surveyor}
    {lack? : String → Option Fault} {files : List SourceFile} {fates : List Outcome}
    (accounts : r.Accounts s lack? files fates)
    (covered : ∀ file ∈ files, s.covers file.path = true) : r.skipped = [] := by
  rw [accounts.skipped, List.map_eq_nil_iff, List.filter_eq_nil_iff]
  intro file h
  simp [covered file h]

/-- The result of a run reports every file that the survey covers. -/
theorem Surveyor.run_reports {s : Surveyor} {store : GrammarStore} {files : List SourceFile}
    {r : SurveyResult} {file : SourceFile} (ok : (s.run none store files).result = .ok r)
    (h : file ∈ files) (covered : s.covers file.path = true) :
    r.Reports s (store.lack? s.tools.loaders) file := by
  obtain ⟨-, rfl⟩ := Surveyor.run_eq_ok ok
  have listed : ⟨file.path, s.outcome (store.lack? s.tools.loaders) file⟩ ∈
      s.outcomes (store.lack? s.tools.loaders) files := List.mem_map_of_mem h
  have fate := Surveyor.fate_outcome (s := s) store file
  have failed {f : Fault}
      (fault : (s.outcome (store.lack? s.tools.loaders) file).fault? = some f) :
      ⟨file.path, f.message⟩ ∈ failuresOf (s.outcomes (store.lack? s.tools.loaders) files) :=
    List.mem_filterMap.2 ⟨_, listed, by rw [fault]; rfl⟩
  cases o : s.outcome (store.lack? s.tools.loaders) file with
  | skipped =>
    have uncovered := fate.isSkipped_iff
    rw [o, covered] at uncovered
    cases uncovered
  | unparsed f => exact .inl ⟨f.message, failed (by rw [o]; rfl)⟩
  | unread f => exact .inl ⟨f.message, failed (by rw [o]; rfl)⟩
  | declared ds =>
    rw [o] at fate listed
    refine .inr ⟨ds, fate, fun d hd => ?_⟩
    exact exists_mem_withoutRepeats Declaration.id (List.mem_flatMap.2 ⟨_, listed, hd⟩)

end CodeGraph
