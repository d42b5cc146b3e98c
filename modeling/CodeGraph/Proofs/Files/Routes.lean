import CodeGraph.Proofs.Files.Search
import CodeGraph.Proofs.Ignore.Inheritance
import CodeGraph.Proofs.Ignore.Rules

/-!
# Three routes to a file

Where no rule is negated and every rule goes on below the folders that it hits, a search that starts
at a folder gives a file below it exactly if a search that starts at the file gives it, which is the
case exactly if the file passes the test and is not ignored (`sourceFiles_routes`).  The rules of
steady patterns are of that kind, as long as no name has a line feed (`inherited_of_isSteady`).
-/

namespace CodeGraph.Files

open CodeGraph.Ignore CodeGraph.Json CodeGraph.Text Node

variable {disk : Node} {matcher : Matcher} {rules : Rules} {accept : String → Bool}
  {root way names folder inner place : Location} {entries : List (String × Node)}
  {content : List UInt8}

/-! ## Names without line feeds -/

mutual

/-- No name in a folder, or below it, has a line feed. -/
def Node.isFeedless : Node → Bool
  | .file _ => true
  | .link _ => true
  | .folder entries => isFeedlessAmong entries

/-- None of the names of some entries, and no name below them, has a line feed. -/
def Node.isFeedlessAmong : List (String × Node) → Bool
  | [] => true
  | (name, node) :: rest =>
    decide ('\n' ∉ name.toList) && node.isFeedless && isFeedlessAmong rest

end

theorem Node.feedless_of_mem {name : String} {node : Node} (h : isFeedlessAmong entries = true)
    (entry : (name, node) ∈ entries) : '\n' ∉ name.toList ∧ node.isFeedless = true := by
  induction entries with
  | nil => cases entry
  | cons first rest ih =>
    obtain ⟨first, head⟩ := first
    rw [isFeedlessAmong, Bool.and_eq_true, Bool.and_eq_true, decide_eq_true_iff] at h
    grind

theorem Node.feedless_at? {node : Node} (h : disk.isFeedless = true)
    (stands : disk.at? place = some node) : ∀ name ∈ place, '\n' ∉ name.toList := by
  induction place generalizing disk with
  | nil => simp
  | cons name rest ih =>
    obtain ⟨inner, entry, below⟩ := Option.bind_eq_some_iff.1 stands
    cases disk with
    | file content => cases entry
    | link target => cases entry
    | folder entries =>
      obtain ⟨first, further⟩ := feedless_of_mem h (mem_of_child? entry)
      exact List.forall_mem_cons.2 ⟨first, ih further below⟩

theorem relativeText_feedless (h : ∀ name ∈ names, '\n' ∉ name.toList) :
    '\n' ∉ relativeText names := by
  by_cases none : names = []
  · rw [none]
    decide
  · rw [relativeText_of_ne_nil none]
    intro feed
    refine forall_mem_joinWith (q := (· ≠ '\n')) (by decide) (fun name h' c hc => ?_) _ feed rfl
    obtain ⟨name, known, rfl⟩ := List.mem_map.1 h'
    rintro rfl
    exact h name known hc

/-! ## Rules that go on below folders -/

/-- A rule that hits the path of a folder below the root, bare or with a slash at its end, hits the
paths of all that stands inside the folder. -/
def Inherited (disk : Node) (root : Location) (rules : Rules) : Prop :=
  ∀ rule ∈ rules, ∀ folder inner : Location, folder ≠ [] → inner ≠ [] →
    (disk.at? (root ++ (folder ++ inner))).isSome = true →
      rule.hits (relativeText folder) = true ∨ rule.hits (relativeText folder ++ ['/']) = true →
        rule.hits (relativeText (folder ++ inner)) = true

theorem relative_of_isName {name : List Char} (h : Path.IsName name) (tail : List Char) :
    Rule.relative (name ++ tail) = name ++ tail := by
  obtain ⟨c, rest, rfl⟩ := List.exists_cons_of_ne_nil h.ne_nil
  have first : c ≠ '/' := by
    rintro rfl
    exact h.free List.mem_cons_self
  unfold Rule.relative
  split
  · next eq => exact absurd (List.cons.inj eq).1 first
  · next eq =>
    -- a dot and a slash in front would make the first name a single dot
    obtain ⟨rfl, behind⟩ := List.cons.inj eq
    cases rest with
    | nil => exact absurd rfl h.ne_dot
    | cons d rest =>
      obtain ⟨rfl, -⟩ := List.cons.inj behind
      exact absurd (by simp) h.free
  · rfl

/-- A path below the root has neither a slash nor a dot and a slash in front. -/
theorem relative_relativeText (named : ∀ name ∈ names, Path.IsName name.toList) (some : names ≠ [])
    (tail : List Char) :
    Rule.relative (relativeText names ++ tail) = relativeText names ++ tail := by
  obtain ⟨name, rest, rfl⟩ := List.exists_cons_of_ne_nil some
  have first := named name List.mem_cons_self
  rw [relativeText_of_ne_nil some, List.map_cons]
  by_cases last : rest = []
  · subst last
    exact relative_of_isName first tail
  · rw [joinWith_cons (by simpa using last), List.append_assoc]
    exact relative_of_isName first _

theorem inherited_of_isSteady (named : disk.isNamed = true) (feedless : disk.isFeedless = true)
    (steady : ∀ rule ∈ rules, ∃ negated pattern, rule = .ofPattern negated pattern ∧
      pattern.isSteady = true) (root : Location) : Inherited disk root rules := by
  intro rule h folder inner some more stands hits
  obtain ⟨negated, pattern, rfl, steady⟩ := steady rule h
  obtain ⟨node, found⟩ := Option.isSome_iff_exists.1 stands
  have isName : ∀ name ∈ folder ++ inner, Path.IsName name.toList := fun name h =>
    (isNamed_at? named found).2 name (List.mem_append_right _ h)
  have free : '\n' ∉ relativeText folder := relativeText_feedless fun name h =>
    feedless_at? feedless found name (by simp [h])
  have folders := fun name h => isName name (List.mem_append_left _ h)
  have whole := relative_relativeText isName (List.append_ne_nil_of_left_ne_nil some inner) []
  have bare := relative_relativeText folders some []
  rw [List.append_nil] at whole bare
  rw [Rule.hits_ofPattern, Rule.hits_ofPattern, bare, relative_relativeText folders some] at hits
  rw [Rule.hits_ofPattern, whole, relativeText_append some more]
  exact hits_below steady free hits _

/-- What stands inside an ignored folder is ignored. -/
theorem ignores_inside (named : disk.isNamed = true) (decided : matcher.DecidedBy rules)
    (plain : ∀ rule ∈ rules, rule.negated = false) (inherited : Inherited disk root rules)
    (some : folder ≠ []) (more : inner ≠ [])
    (stands : (disk.at? (root ++ (folder ++ inner))).isSome = true)
    (h : matcher.ignores (relativeText folder) true = true) :
    matcher.ignores (relativeText (folder ++ inner)) false = true := by
  obtain ⟨node, found⟩ := Option.isSome_iff_exists.1 stands
  have isName : ∀ name ∈ folder ++ inner, Path.IsName name.toList := fun name h =>
    (isNamed_at? named found).2 name (List.mem_append_right _ h)
  rw [decided.ignores_iff_rejects isName (List.append_ne_nil_of_left_ne_nil some inner)]
  rw [decided.ignores_iff_rejects (fun name h => isName name (List.mem_append_left _ h)) some,
    Rules.rejects_iff_of_plain plain, Rules.rejects_iff_of_plain plain] at h
  refine Or.inl ((Rules.rejects_iff_of_plain plain).2 ?_)
  rcases h with ⟨rule, known, hits⟩ | ⟨rule, known, hits⟩
  · exact ⟨rule, known, inherited rule known folder inner some more stands (Or.inl hits)⟩
  · exact ⟨rule, known, inherited rule known folder inner some more stands (Or.inr hits)⟩

/-! ## The routes -/

/-- The file passes the test, and the patterns do not ignore it. -/
def IsKept (matcher : Matcher) (accept : String → Bool) (root place : Location) : Prop :=
  accept (place.getLastD "") = true ∧ isIgnored matcher root place = false

/-- A search that starts at a folder loses no file in a folder that it passes over. -/
theorem isSource_iff_isKept (named : disk.isNamed = true) (decided : matcher.DecidedBy rules)
    (plain : ∀ rule ∈ rules, rule.negated = false) (inherited : Inherited disk root rules)
    (stands : disk.at? (root ++ way ++ names) = some (.file content)) (some : names ≠ []) :
    IsSource disk matcher accept root way names ↔
      IsKept matcher accept root (root ++ way ++ names) := by
  rw [IsKept, getLastD_append some, List.append_assoc root, isIgnored_append]
  constructor
  · intro source
    exact ⟨source.accepted, source.kept⟩
  · rintro ⟨accepted, kept⟩
    refine ⟨⟨⟨content, stands⟩, some, ?_⟩, accepted, kept⟩
    rintro front nonempty ⟨further, rfl⟩ other
    by_contra ignored
    have inside : (way ++ front) ++ further = way ++ (front ++ further) := List.append_assoc ..
    have around : way ++ front ≠ [] := List.append_ne_nil_of_right_ne_nil way nonempty
    have more : further ≠ [] := by simpa using other
    have found : (disk.at? (root ++ ((way ++ front) ++ further))).isSome = true := by
      rw [inside, ← List.append_assoc, stands]
      rfl
    have lost := ignores_inside named decided plain inherited around more found
      (by simpa using ignored)
    rw [inside, kept] at lost
    cases lost

/-- A search that starts at a file gives it or nothing. -/
theorem mem_sourceFiles_file (found : present? disk place = .ok (some (.file content)))
    (matcher : Matcher) (accept : String → Bool) (root : Location) :
    ∃ single, sourceFiles disk matcher accept root place = .ok single ∧
      (place ∈ single ↔ IsKept matcher accept root place) := by
  rw [sourceFiles, found]
  refine ⟨_, rfl, ?_⟩
  dsimp only
  rw [IsKept, ← Bool.not_eq_true', and_comm, ← Bool.and_eq_true]
  split
  · next kept => exact iff_of_true List.mem_cons_self kept
  · next lost => exact iff_of_false List.not_mem_nil lost

/-- For a library in which the last rule that hits a path decides and just an exclamation mark in
front negates a rule: where no pattern begins with that mark and every rule goes on below the
folders it hits, a search that starts at a folder gives a file below it, and a search that starts at
the file gives it, exactly if the file passes the test and is not ignored. -/
theorem sourceFiles_routes (tree : disk.IsTree) {library : PatternLibrary}
    (unmarked : library.PlainUnmarked) (decided : (library.matcher rules).DecidedBy rules)
    {patterns : List String} (plain : ∀ pattern ∈ patterns, pattern.toList.head? ≠ some '!')
    (valid : library.rulesOf (patterns.map Value.text) = .ok rules)
    (inherited : Inherited disk root rules) (opens : disk.Opens (root ++ way) (.folder entries))
    (accept : String → Bool) :
    resolvePlace disk root = .ok root ∧ resolvePlace disk (root ++ way) = .ok (root ++ way) ∧
    ∃ found, sourceFiles disk (library.matcher rules) accept root (root ++ way) = .ok found ∧
      ∀ names content, disk.at? (root ++ way ++ names) = some (.file content) →
        resolvePlace disk (root ++ way ++ names) = .ok (root ++ way ++ names) ∧
        (root ++ way ++ names ∈ found ↔
          IsKept (library.matcher rules) accept root (root ++ way ++ names)) ∧
        ((root ++ way ++ names).Fits → ∃ single,
          sourceFiles disk (library.matcher rules) accept root (root ++ way ++ names) = .ok single ∧
          (root ++ way ++ names ∈ single ↔
            IsKept (library.matcher rules) accept root (root ++ way ++ names))) := by
  have around := tree.names opens.stands
  refine ⟨tree.resolvePlace_eq fun name h => around name (List.mem_append_left _ h),
    tree.resolvePlace_eq around, _, sourceFiles_folder opens.found, fun names content stands =>
      ⟨tree.resolvePlace_eq (tree.names stands), ?_, fun fits =>
        mem_sourceFiles_file (tree.opens stands fits).found _ accept root⟩⟩
  have some : names ≠ [] := by
    rintro rfl
    rw [List.append_nil, opens.stands] at stands
    cases stands
  rw [mem_sources_iff tree opens.stands (fun _ => rfl),
    ← isSource_iff_isKept tree.named decided (unmarked.negated plain valid) inherited stands some]
  constructor
  · rintro ⟨names', same, source⟩
    obtain rfl := List.append_cancel_left same
    exact source
  · intro source
    exact ⟨names, rfl, source⟩

/-- The rule `*.md`. -/
def markdownRule : Rule :=
  .ofPattern false (.path [.folders, .glob [.run, .one '.', .one 'm', .one 'd']])

/-- What the rules `gen/` and `*.md` exclude together. -/
def plainMatcher : Matcher := gitignore.matcher [genRule, markdownRule]

/-- A search of the project under the patterns `gen/` and `*.md` loses a file that no search
gives. -/
theorem sourceFiles_routes_project :
    (Node.folder projectEntries).IsTree ∧ gitignore.PlainUnmarked ∧
      plainMatcher.DecidedBy [genRule, markdownRule] ∧
      (∀ pattern ∈ ["gen/", "*.md"], pattern.toList.head? ≠ some '!') ∧
      gitignore.rulesOf (["gen/", "*.md"].map Value.text) = .ok [genRule, markdownRule] ∧
      Inherited (.folder projectEntries) [] [genRule, markdownRule] ∧
      (Node.folder projectEntries).Opens ["src"] (.folder sourceEntries) ∧
      ∃ found, sourceFiles (.folder projectEntries) plainMatcher (fun _ => true) []
          ["src"] = .ok found ∧
        ["src", "lib", "a.py"] ∈ found ∧ ["src", "gen", "c.py"] ∉ found ∧
        ∃ single, sourceFiles (.folder projectEntries) plainMatcher (fun _ => true) []
            ["src", "gen", "c.py"] = .ok single ∧
          ["src", "gen", "c.py"] ∉ single := by
  have tree : (Node.folder projectEntries).IsTree := ⟨by decide, by decide⟩
  have plain : ∀ pattern ∈ ["gen/", "*.md"], pattern.toList.head? ≠ some '!' := by decide
  have valid : gitignore.rulesOf (["gen/", "*.md"].map Value.text) =
      .ok [genRule, markdownRule] := by
    cbv
  have decided : plainMatcher.DecidedBy [genRule, markdownRule] := decidedBy_excludes _
  have steady : ∀ rule ∈ [genRule, markdownRule], ∃ negated pattern,
      rule = .ofPattern negated pattern ∧ pattern.isSteady = true :=
    List.forall_mem_cons.2
      ⟨⟨_, _, rfl, by decide⟩, List.forall_mem_singleton.2 ⟨_, _, rfl, by decide⟩⟩
  have inherited : Inherited (.folder projectEntries) [] [genRule, markdownRule] :=
    inherited_of_isSteady tree.named (by decide) steady []
  have opens : (Node.folder projectEntries).Opens ([] ++ ["src"]) (.folder sourceEntries) :=
    tree.opens rfl (by decide)
  obtain ⟨-, -, found, given, routes⟩ :=
    sourceFiles_routes tree plainUnmarked_gitignore decided plain valid inherited opens
      fun _ => true
  obtain ⟨-, kept, -⟩ := routes ["lib", "a.py"] [] rfl
  obtain ⟨-, lost, alone⟩ := routes ["gen", "c.py"] [] rfl
  obtain ⟨single, searched, same⟩ := alone (by decide)
  have ignored : ¬ IsKept plainMatcher (fun _ => true) [] ["src", "gen", "c.py"] := by
    rintro ⟨-, h⟩
    revert h
    decide +kernel
  exact ⟨tree, plainUnmarked_gitignore, decided, plain, valid, inherited, opens, found, given,
    kept.2 ⟨rfl, by decide +kernel⟩, fun h => ignored (lost.1 h), single, searched,
    fun h => ignored (same.1 h)⟩

end CodeGraph.Files
