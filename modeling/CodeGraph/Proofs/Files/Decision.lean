import CodeGraph.Proofs.Files.Search
import CodeGraph.Proofs.Ignore.Rules

/-!
# Which rule decides about an entry

Where the last rule that hits a path decides whether the path is excluded, a walk tries the path of
every entry that it comes to in two spellings, bare and with a slash at its end, folders and files
alike, and passes the entry over if the last rule that hits one of them is not negated
(`sourceFiles_rejects`).  So the last rule that is meant for an entry need not decide: a folder that
a later rule includes again by its name with a slash stays excluded by its bare name, and a rule
that asks for a folder excludes a file (`not_decidedByLast_library`).
-/

namespace CodeGraph.Files

open CodeGraph.Ignore CodeGraph.Json Node

variable {disk node : Node} {matcher : Matcher} {rules : Rules} {accept : String → Bool}
  {root start folder names : Location} {entries : List (String × Node)} {name : String}

theorem Met.isName (named : disk.isNamed = true) (here : disk.at? start = some (.folder entries))
    {enters : Location → String → Bool} (met : Met enters start entries folder name node) :
    ∀ segment ∈ folder ++ [name], Path.IsName segment.toList := by
  obtain ⟨way, rfl, stands, -⟩ := (met_iff (isNamed_at? named here).1).1 met
  have whole : disk.at? (start ++ (way ++ [name])) = some node := by
    rw [at?_append, here, Option.bind_some, stands]
  rw [List.append_assoc]
  exact (isNamed_at? named whole).2

/-- The path of an entry is rejected, bare or with a slash at its end. -/
def RejectsEntry (rules : Rules) (names : Location) : Prop :=
  rules.Rejects (relativeText names) ∨ rules.Rejects (relativeText names ++ ['/'])

instance (rules : Rules) (names : Location) : Decidable (RejectsEntry rules names) :=
  inferInstanceAs (Decidable (_ ∨ _))

theorem ignoresEntry_iff_rejectsEntry (decided : matcher.DecidedBy rules)
    (isName : ∀ segment ∈ names ++ [name], Path.IsName segment.toList) (isFolder : Bool) :
    ignoresEntry matcher root (root ++ names) name isFolder = true ↔
      RejectsEntry rules (names ++ [name]) := by
  rw [ignoresEntry_append]
  exact decided.ignores_iff_rejects isName (by simp) isFolder

/-- Where the last rule that hits a path decides, what stands in a folder below the root that a walk
comes to is come to unless the path of the folder is rejected in one of its two spellings, and a
file below the root that a walk comes to and that passes the test is given unless its path is
rejected in one of its two spellings. -/
theorem sourceFiles_rejects (named : disk.isNamed = true)
    (opens : disk.Opens start (.folder entries)) (decided : matcher.DecidedBy rules)
    (accept : String → Bool) (root : Location) :
    ∃ found, sourceFiles disk matcher accept root start = .ok found ∧
      ∀ names name node, Met (entersBy matcher root) start entries (root ++ names) name node →
        (∀ inner below further, node = .folder inner → (below, further) ∈ inner →
          (Met (entersBy matcher root) start entries (root ++ names ++ [name]) below further ↔
            ¬ RejectsEntry rules (names ++ [name]))) ∧
        (∀ content, node = .file content → accept name = true →
          (root ++ names ++ [name] ∈ found ↔ ¬ RejectsEntry rules (names ++ [name]))) := by
  refine ⟨_, sourceFiles_folder opens.found, fun names name node met => ?_⟩
  have isName : ∀ segment ∈ names ++ [name], Path.IsName segment.toList := by
    intro segment h
    refine met.isName named opens.stands segment ?_
    rw [List.append_assoc]
    exact List.mem_append_right _ h
  constructor
  · rintro inner below further rfl h
    rw [met_inside_iff met h, entersBy, Bool.not_eq_true', ← Bool.not_eq_true,
      ignoresEntry_iff_rejectsEntry decided isName]
  · rintro content rfl accepted
    have listed : (⟨root ++ names, name⟩ : FilePlace) ∈ walked disk matcher root start entries :=
      mem_walked_iff_met.2 ⟨_, met, rfl⟩
    have place : FilePlace.place ⟨root ++ names, name⟩ = root ++ names ++ [name] := rfl
    rw [List.mem_mergeSort, ← place, List.mem_map_of_injective fun _ _ => FilePlace.place_inj,
      List.mem_filter, accepted, Bool.true_and, Bool.not_eq_true', ← Bool.not_eq_true,
      ignoresEntry_iff_rejectsEntry decided isName]
    exact and_iff_right listed

/-! ## Rules that do not decide -/

/-- A folder below the root is passed over exactly if the last rule that hits its path with a slash
at its end excludes it. -/
def FoldersFollow (matcher : Matcher) (rules : Rules) (root start : Location)
    (entries : List (String × Node)) : Prop :=
  ∀ names name inner below further,
    Met (entersBy matcher root) start entries (root ++ names) name (.folder inner) →
      (below, further) ∈ inner →
        (Met (entersBy matcher root) start entries (root ++ names ++ [name]) below further ↔
          ¬ rules.Rejects (relativeText (names ++ [name]) ++ ['/']))

/-- A file below the root that passes the test is given unless the last rule that hits its path
without a slash at its end excludes it. -/
def FilesFollow (matcher : Matcher) (rules : Rules) (accept : String → Bool) (root start : Location)
    (entries : List (String × Node)) (found : List Location) : Prop :=
  ∀ names name content,
    Met (entersBy matcher root) start entries (root ++ names) name (.file content) →
      accept name = true →
        (root ++ names ++ [name] ∈ found ↔ ¬ rules.Rejects (relativeText (names ++ [name])))

/-- A folder with a file, and a file beside it. -/
def libraryEntries : List (String × Node) :=
  [("lib", .folder [("a.py", .file [])]), ("gen.py", .file [])]

/-- The folder is excluded and, as a folder, included again; the file is excluded as a folder. -/
def libraryRules : Rules :=
  let lib := [.folders, .glob [.one 'l', .one 'i', .one 'b']]
  let gen := [.folders, .glob [.one 'g', .one 'e', .one 'n', .one '.', .one 'p', .one 'y']]
  [.ofPattern false (.path lib), .ofPattern true (.path (lib ++ [.folders])),
    .ofPattern false (.path (gen ++ [.folders]))]

/-- What the rules exclude together. -/
def libraryMatcher : Matcher := gitignore.matcher libraryRules

/-- The file beside the folder is not given, and what stands in the folder is not come to. -/
theorem sourceFiles_rejects_library :
    (Node.folder libraryEntries).isNamed = true ∧
      (Node.folder libraryEntries).Opens [] (.folder libraryEntries) ∧
      libraryMatcher.DecidedBy libraryRules ∧
      ∃ found,
        sourceFiles (.folder libraryEntries) libraryMatcher (fun _ => true) [] [] = .ok found ∧
        ["gen.py"] ∉ found ∧
        ¬ Met (entersBy libraryMatcher []) [] libraryEntries ["lib"] "a.py" (.file []) := by
  have tree : (Node.folder libraryEntries).IsTree := ⟨by decide, by decide⟩
  have opens : (Node.folder libraryEntries).Opens [] (.folder libraryEntries) :=
    tree.opens rfl (by decide)
  have decided : libraryMatcher.DecidedBy libraryRules := decidedBy_excludes libraryRules
  obtain ⟨found, given, rule⟩ :=
    sourceFiles_rejects tree.named opens decided (fun _ => true) []
  have folder := (rule [] "lib" _ (.entry List.mem_cons_self)).1 _ "a.py" (.file []) rfl
    List.mem_cons_self
  have file := (rule [] "gen.py" _ (.entry (by simp [libraryEntries]))).2 [] rfl rfl
  exact ⟨tree.named, opens, decided, found, given, fun h => file.1 h (by decide +kernel),
    fun h => folder.1 h (by decide +kernel)⟩

/-- The last rule that is meant for the folder includes it, and none is meant for the file; yet a
walk gives nothing. -/
theorem not_decidedByLast_library :
    gitignore.rulesOf (["lib", "!lib/", "gen.py/"].map Value.text) = .ok libraryRules ∧
      libraryMatcher.DecidedBy libraryRules ∧
      sourceFiles (.folder libraryEntries) libraryMatcher (fun _ => true) [] [] = .ok [] ∧
      ¬ FoldersFollow libraryMatcher libraryRules [] [] libraryEntries ∧
      ¬ FilesFollow libraryMatcher libraryRules (fun _ => true) [] [] libraryEntries [] := by
  have tree : (Node.folder libraryEntries).IsTree := ⟨by decide, by decide⟩
  have opens : (Node.folder libraryEntries).Opens [] (.folder libraryEntries) :=
    tree.opens rfl (by decide)
  refine ⟨by cbv, decidedBy_excludes libraryRules, ?_, fun follow => ?_, fun follow => ?_⟩
  · rw [sourceFiles_folder opens.found]
    have none : walked (.folder libraryEntries) libraryMatcher [] [] libraryEntries =
        [⟨[], "gen.py"⟩] := by decide +kernel
    rw [none]
    decide +kernel
  · have met : Met (entersBy libraryMatcher []) [] libraryEntries ([] ++ []) "lib"
        (.folder [("a.py", .file [])]) := .entry List.mem_cons_self
    have included := (follow [] "lib" _ "a.py" _ met List.mem_cons_self).2 (by decide +kernel)
    have entered := (met_inside_iff met List.mem_cons_self).1 included
    revert entered
    decide +kernel
  · have met : Met (entersBy libraryMatcher []) [] libraryEntries ([] ++ []) "gen.py" (.file []) :=
      .entry (by simp [libraryEntries])
    have given := (follow [] "gen.py" [] met rfl).2 (by decide +kernel)
    cases given

end CodeGraph.Files
