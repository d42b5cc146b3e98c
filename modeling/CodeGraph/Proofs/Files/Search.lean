import CodeGraph.Ignore.Rules
import CodeGraph.Proofs.Files.Entries
import CodeGraph.Proofs.Files.Paths

/-!
# The search for source files

In a tree a search gives exactly the files below its start that pass the test, that the patterns do
not ignore, and that lie in no ignored folder below the start: each one once and in the order of
their paths (`sourceFiles_search`).  The test is asked about no file of an ignored folder.  None of
this depends on the order in which the folders are listed, or on how patterns are matched.  Where
there are links, too, what a search gives has passed the test by its name
(`name_of_mem_sourceFiles`).
-/

namespace CodeGraph.Files

open CodeGraph.Ignore Node

variable {disk listed : Node} {matcher : Matcher} {accept : String → Bool}
  {root way names start : Location} {entries : List (String × Node)} {f g : FilePlace}

/-! ## Walking under patterns -/

/-- A walk enters the folders that the patterns do not ignore. -/
def entersBy (matcher : Matcher) (root : Location) (folder : Location) (name : String) : Bool :=
  !ignoresEntry matcher root folder name true

theorem mem_walked_iff_met : f ∈ walked disk matcher root start entries ↔
    ∃ node, Met (entersBy matcher root) start entries f.folder f.name node ∧
      isListed disk f.place node = true :=
  mem_reachedAmong_iff

theorem entered_entersBy_iff : Entered (entersBy matcher root) (root ++ way) names ↔
    ∀ front, front ≠ [] → front <+: names →
      matcher.ignores (relativeText (way ++ front)) true = false := by
  have step (front : Location) (name : String) :
      entersBy matcher root (root ++ way ++ front) name = true ↔
        matcher.ignores (relativeText (way ++ (front ++ [name]))) true = false := by
    simp [entersBy]
  constructor
  · intro all front some h
    obtain ⟨front, name, rfl⟩ := List.eq_nil_or_concat' front |>.resolve_left some
    exact (step front name).1 (all front name h)
  · intro all front name h
    exact (step front name).2 (all (front ++ [name]) (by simp) h)

/-- A file below the folder to which `way` leads from the root, reached without passing through an
ignored folder; `names` leads to it from that folder. -/
structure IsReachable (disk : Node) (matcher : Matcher) (root way names : Location) : Prop where
  isFile : ∃ content, disk.at? (root ++ way ++ names) = some (.file content)
  below : names ≠ []
  unpruned : ∀ front, front ≠ [] → front <+: names → front ≠ names →
    matcher.ignores (relativeText (way ++ front)) true = false

/-- A file that is reached, passes the test and is not ignored itself. -/
structure IsSource (disk : Node) (matcher : Matcher) (accept : String → Bool)
    (root way names : Location) : Prop extends IsReachable disk matcher root way names where
  accepted : accept (names.getLastD "") = true
  kept : matcher.ignores (relativeText (way ++ names)) false = false

theorem isReachable_iff : IsReachable disk matcher root way names ↔
    ∃ inner name content, names = inner ++ [name] ∧
      disk.at? (root ++ way ++ names) = some (.file content) ∧
      Entered (entersBy matcher root) (root ++ way) inner := by
  constructor
  · rintro ⟨⟨content, stands⟩, some, unpruned⟩
    obtain ⟨inner, name, rfl⟩ := List.eq_nil_or_concat' names |>.resolve_left some
    refine ⟨inner, name, content, rfl, stands, entered_entersBy_iff.2 fun front some h => ?_⟩
    refine unpruned front some (h.trans (List.prefix_append ..)) ?_
    rintro rfl
    have shorter := h.length_le
    rw [List.length_append, List.length_singleton] at shorter
    omega
  · rintro ⟨inner, name, content, rfl, stands, entered⟩
    refine ⟨⟨content, stands⟩, by simp, fun front some h other => ?_⟩
    have inside := (List.prefix_concat_iff.1 h).resolve_left other
    exact entered_entersBy_iff.1 entered front some inside

theorem getLastD_append (some : names ≠ []) (front : Location) (default : String) :
    (front ++ names).getLastD default = names.getLastD default := by
  obtain ⟨inner, name, rfl⟩ := List.eq_nil_or_concat' names |>.resolve_left some
  rw [← List.append_assoc, List.getLastD_concat, List.getLastD_concat]

theorem IsReachable.of_sameTree (same : disk.SameTree listed) :
    IsReachable disk matcher root way names ↔ IsReachable listed matcher root way names := by
  have files : (∃ content, disk.at? (root ++ way ++ names) = some (.file content)) ↔
      ∃ content, listed.at? (root ++ way ++ names) = some (.file content) :=
    exists_congr fun content => same.at?_file _ content
  exact ⟨fun h => ⟨files.1 h.isFile, h.below, h.unpruned⟩,
    fun h => ⟨files.2 h.isFile, h.below, h.unpruned⟩⟩

/-! ## Places of files -/

theorem FilePlace.place_inj (h : f.place = g.place) : f = g := by
  obtain ⟨folder, name⟩ := f
  obtain ⟨folder', name'⟩ := g
  obtain ⟨rfl, same⟩ := List.append_inj' h rfl
  cases same
  rfl

/-- The patterns see a file that a walk comes to by its names from the root. -/
theorem filter_walked (accept : String → Bool) :
    ((walked disk matcher root (root ++ way) entries).filter fun f =>
        accept f.name && !ignoresEntry matcher root f.folder f.name false).map FilePlace.place =
      ((walked disk matcher root (root ++ way) entries).map FilePlace.place).filter fun place =>
        accept (place.getLastD "") && !isIgnored matcher root place := by
  rw [List.filter_map]
  congr 1
  refine List.filter_congr fun f h => ?_
  obtain ⟨node, met, -⟩ := mem_walked_iff_met.1 h
  obtain ⟨inner, folder, -⟩ := met.exists_way
  have seen : ignoresEntry matcher root f.folder f.name false = isIgnored matcher root f.place := by
    simp [FilePlace.place, folder]
  rw [seen, Function.comp_apply, FilePlace.place, List.getLastD_concat]

section Tree

variable (tree : listed.IsTree) (here : listed.at? (root ++ way) = some (.folder entries))

include tree here

theorem mem_walked_iff : f ∈ walked listed matcher root (root ++ way) entries ↔
    ∃ names, f.place = root ++ way ++ names ∧ IsReachable listed matcher root way names := by
  have named := (tree.below here).named
  rw [mem_walked_iff_met]
  constructor
  · rintro ⟨node, met, counts⟩
    obtain ⟨inner, folder, stands, entered⟩ := (met_iff named).1 met
    have place : f.place = root ++ way ++ (inner ++ [f.name]) := by
      rw [FilePlace.place, folder, List.append_assoc]
    have found : listed.at? (root ++ way ++ (inner ++ [f.name])) = some node := by
      rw [at?_append, here, Option.bind_some, stands]
    refine ⟨inner ++ [f.name], place, isReachable_iff.2 ⟨inner, f.name, ?_⟩⟩
    rcases (tree.below found).file_or_folder with ⟨content, rfl⟩ | ⟨further, rfl⟩
    · exact ⟨content, rfl, found, entered⟩
    · cases counts
  · rintro ⟨names, place, reachable⟩
    obtain ⟨inner, name, content, rfl, found, entered⟩ := isReachable_iff.1 reachable
    rw [← List.append_assoc] at place
    obtain rfl : f = ⟨root ++ way ++ inner, name⟩ := FilePlace.place_inj place
    refine ⟨.file content, (met_iff named).2 ⟨inner, rfl, ?_, entered⟩, rfl⟩
    rwa [at?_append, here, Option.bind_some] at found

/-- A walk comes to the files below its start that lie in no ignored folder. -/
theorem mem_places_walked_iff (same : disk.SameTree listed) (place : Location) :
    place ∈ (walked listed matcher root (root ++ way) entries).map FilePlace.place ↔
      ∃ names, place = root ++ way ++ names ∧ IsReachable disk matcher root way names := by
  rw [List.mem_map]
  simp only [IsReachable.of_sameTree same]
  constructor
  · rintro ⟨f, h, rfl⟩
    exact (mem_walked_iff tree here).1 h
  · rintro ⟨names, rfl, reachable⟩
    obtain ⟨inner, name, content, rfl, -, -⟩ := isReachable_iff.1 reachable
    have place : FilePlace.place ⟨root ++ way ++ inner, name⟩ = root ++ way ++ (inner ++ [name]) :=
      List.append_assoc ..
    exact ⟨_, (mem_walked_iff tree here).2 ⟨_, place, reachable⟩, place⟩

theorem nodup_places_walked :
    ((walked listed matcher root (root ++ way) entries).map FilePlace.place).Nodup := by
  have named := (tree.below here).named
  rw [isNamed, Bool.and_eq_true, decide_eq_true_iff] at named
  have nodup : (walked listed matcher root (root ++ way) entries).Nodup :=
    nodup_reachedAmong _ _ _ _ named.1 named.2
  exact nodup.map fun _ _ => FilePlace.place_inj

end Tree

/-! ## The search -/

theorem before_trans (a b c : Location) (h : Location.before a b = true)
    (h' : Location.before b c = true) : Location.before a c = true :=
  decide_eq_true (String.le_trans (of_decide_eq_true h) (of_decide_eq_true h'))

theorem before_total (a b : Location) : (Location.before a b || Location.before b a) = true := by
  rw [Bool.or_eq_true]
  exact (String.le_total a.text b.text).imp decide_eq_true decide_eq_true

/-- Different locations that are in order are so strictly. -/
theorem pairwise_text_mergeSort {places : List Location} (distinct : places.Nodup)
    (named : ∀ place ∈ places, ∀ name ∈ place, Path.IsName name.toList) :
    (places.mergeSort Location.before).Pairwise fun a b => a.text < b.text := by
  have sorted := List.pairwise_mergeSort before_trans before_total places
  have same := List.mergeSort_perm places Location.before
  refine (sorted.and (same.nodup_iff.2 distinct)).imp_of_mem ?_
  rintro a b ha hb ⟨before, other⟩
  refine Std.lt_of_le_of_ne (of_decide_eq_true before) fun text => other ?_
  exact text_inj (named a (same.mem_iff.1 ha)) (named b (same.mem_iff.1 hb)) text

/-- Where a search starts at a folder, it gives the reached files that pass the test and are
kept. -/
theorem sourceFiles_folder (found : present? disk start = .ok (some (.folder entries))) :
    sourceFiles disk matcher accept root start =
      .ok ((((walked disk matcher root start entries).filter fun f =>
        accept f.name && !ignoresEntry matcher root f.folder f.name false).map
          FilePlace.place).mergeSort Location.before) := by
  rw [sourceFiles, found]
  rfl

/-- A search gives the file where it starts, or files at names below the folder where it starts; the
test has passed the name. -/
theorem name_of_mem_sourceFiles {places : List Location} {place : Location}
    (ok : sourceFiles disk matcher accept root start = .ok places) (h : place ∈ places) :
    (∃ content, present? disk start = .ok (some (.file content)) ∧ place = start ∧
      accept (start.getLastD "") = true) ∨
    ∃ entries way name, present? disk start = .ok (some (.folder entries)) ∧
      place = start ++ (way ++ [name]) ∧ accept name = true := by
  unfold sourceFiles at ok
  cases present : present? disk start with
  | error f =>
    rw [present] at ok
    cases ok
  | ok node =>
    rw [present] at ok
    obtain rfl := Except.ok.inj ok
    match node with
    | none => cases h
    | some (.link target) => cases h
    | some (.file content) =>
      left
      split at h
      · next kept =>
        rw [Bool.and_eq_true] at kept
        exact ⟨content, rfl, List.mem_singleton.1 h, kept.2⟩
      · cases h
    | some (.folder inner) =>
      right
      rw [List.mem_mergeSort, List.mem_map] at h
      obtain ⟨f, found, rfl⟩ := h
      obtain ⟨inside, kept⟩ := List.mem_filter.1 found
      obtain ⟨node, met, -⟩ := mem_walked_iff_met.1 inside
      obtain ⟨way, folder, -⟩ := met.exists_way
      rw [Bool.and_eq_true] at kept
      refine ⟨inner, way, f.name, rfl, ?_, kept.1⟩
      rw [FilePlace.place, folder, List.append_assoc]

/-- A search that comes to one file only. -/
theorem sourceFiles_singleton {place : Location}
    (here : present? disk start = .ok (some (.folder entries)))
    (found : ((walked disk matcher root start entries).filter fun f =>
      accept f.name && !ignoresEntry matcher root f.folder f.name false).map FilePlace.place =
        [place]) :
    sourceFiles disk matcher accept root start = .ok [place] := by
  rw [sourceFiles_folder here, found, List.mergeSort_singleton]

/-- The sources are the files that a walk comes to, that pass the test and that are kept. -/
theorem mem_sources_iff (tree : listed.IsTree)
    (here : listed.at? (root ++ way) = some (.folder entries)) (same : disk.SameTree listed)
    (accept : String → Bool) (place : Location) :
    place ∈ (((walked listed matcher root (root ++ way) entries).filter fun f =>
        accept f.name && !ignoresEntry matcher root f.folder f.name false).map
          FilePlace.place).mergeSort Location.before ↔
      ∃ names, place = root ++ way ++ names ∧ IsSource disk matcher accept root way names := by
  rw [List.mem_mergeSort, filter_walked, List.mem_filter, mem_places_walked_iff tree here same,
    Bool.and_eq_true, Bool.not_eq_true']
  constructor
  · rintro ⟨⟨names, rfl, reachable⟩, accepted, kept⟩
    rw [getLastD_append reachable.below] at accepted
    rw [List.append_assoc, isIgnored_append] at kept
    exact ⟨names, rfl, reachable, accepted, kept⟩
  · rintro ⟨names, rfl, source⟩
    refine ⟨⟨names, rfl, source.toIsReachable⟩, ?_, ?_⟩
    · rw [getLastD_append source.below, source.accepted]
    · simp [source.kept]

theorem askedNames_folder (found : present? disk start = .ok (some (.folder entries))) :
    askedNames disk matcher root start =
      ((walked disk matcher root start entries).map FilePlace.place).map fun place =>
        place.getLastD "" := by
  have node : nodeOf disk start = .ok (.folder entries) := by
    rw [present?] at found
    cases h : nodeOf disk start with
    | ok node =>
      rw [h] at found
      cases found
      rfl
    | error f =>
      rw [h, presentIn] at found
      split at found <;> cases found
  rw [askedNames, node, List.map_map]
  exact List.map_congr_left fun f _ => (List.getLastD_concat ..).symm

/-- A search of a tree, whatever the order in which its folders are listed and whatever the patterns
exclude, gives exactly the files below its start that pass the test and are not ignored, and none of
whose folders below the start is ignored; each once, in the order of their paths.  The test is asked
once about each file that lies in no ignored folder below the start, and about no other. -/
theorem sourceFiles_search (tree : listed.IsTree) (same : disk.SameTree listed)
    (opens : listed.Opens (root ++ way) (.folder entries)) (matcher : Matcher)
    (accept : String → Bool) :
    resolvePlace listed root = .ok root ∧ resolvePlace listed (root ++ way) = .ok (root ++ way) ∧
    ∃ found asked : List Location,
      sourceFiles listed matcher accept root (root ++ way) = .ok found ∧
      (∀ place, place ∈ found ↔
        ∃ names, place = root ++ way ++ names ∧ IsSource disk matcher accept root way names) ∧
      (found.Pairwise fun a b => a.text < b.text) ∧
      askedNames listed matcher root (root ++ way) = asked.map (fun place => place.getLastD "") ∧
      (∀ place, place ∈ asked ↔
        ∃ names, place = root ++ way ++ names ∧ IsReachable disk matcher root way names) ∧
      asked.Nodup ∧
      found.Perm (asked.filter fun place =>
        accept (place.getLastD "") && !isIgnored matcher root place) := by
  have names := tree.names opens.stands
  have asked := @mem_places_walked_iff _ _ matcher _ _ _ tree opens.stands same
  have distinct := @nodup_places_walked _ matcher _ _ _ tree opens.stands
  refine ⟨tree.resolvePlace_eq fun name h => names name (List.mem_append_left _ h),
    tree.resolvePlace_eq names, _, _, sourceFiles_folder opens.found,
    mem_sources_iff tree opens.stands same accept, ?_, askedNames_folder opens.found, asked,
    distinct, ?_⟩
  · rw [filter_walked]
    refine pairwise_text_mergeSort (distinct.filter _) fun place h => ?_
    obtain ⟨names, rfl, reachable⟩ := (asked place).1 (List.mem_of_mem_filter h)
    obtain ⟨content, stands⟩ := reachable.isFile
    exact tree.names ((same.at?_file _ _).1 stands)
  · rw [filter_walked]
    exact List.mergeSort_perm _ _

/-- The folder of a project where a search starts. -/
def sourceEntries : List (String × Node) :=
  [("z.py", .file []), ("gen", .folder [("c.py", .file [])]), ("lib", .folder [("a.py", .file [])])]

/-- A project. -/
def projectEntries : List (String × Node) := [("docs", .folder []), ("src", .folder sourceEntries)]

/-- The rule `gen/`. -/
def genRule : Rule :=
  .ofPattern false (.path [.folders, .glob [.one 'g', .one 'e', .one 'n'], .folders])

/-- What the rule excludes. -/
def genMatcher : Matcher := gitignore.matcher [genRule]

/-- A search of the project, listed backwards, gives the file of the one folder and does not ask
about the file of the other. -/
theorem sourceFiles_search_project :
    (Node.folder projectEntries.reverse).IsTree ∧
      (Node.folder projectEntries).SameTree (.folder projectEntries.reverse) ∧
      (Node.folder projectEntries.reverse).Opens ["src"] (.folder sourceEntries) ∧
      ∃ found asked : List Location,
        sourceFiles (.folder projectEntries.reverse) genMatcher (fun _ => true) [] ["src"] =
          .ok found ∧
        ["src", "lib", "a.py"] ∈ found ∧
        askedNames (.folder projectEntries.reverse) genMatcher [] ["src"] =
          asked.map (fun place => place.getLastD "") ∧
        ["src", "gen", "c.py"] ∉ asked := by
  have tree : (Node.folder projectEntries.reverse).IsTree := ⟨by decide, by decide⟩
  have same : (Node.folder projectEntries).SameTree (.folder projectEntries.reverse) :=
    sameTree_of_perm (by decide) (List.reverse_perm _).symm
  have opens : (Node.folder projectEntries.reverse).Opens ([] ++ ["src"]) (.folder sourceEntries) :=
    tree.opens rfl (by decide)
  obtain ⟨-, -, found, asked, given, sources, -, names, reached, -, -⟩ :=
    sourceFiles_search tree same opens genMatcher fun _ => true
  have entered : Entered (entersBy genMatcher []) ([] ++ ["src"]) ["lib"] :=
    entered_cons.2 ⟨by decide +kernel, entered_nil _ _⟩
  have source : IsSource (.folder projectEntries) genMatcher (fun _ => true) [] ["src"]
      ["lib", "a.py"] :=
    ⟨isReachable_iff.2 ⟨["lib"], "a.py", [], rfl, rfl, entered⟩, rfl, by decide +kernel⟩
  refine ⟨tree, same, opens, found, asked, given, (sources _).2 ⟨_, rfl, source⟩, names,
    fun h => ?_⟩
  obtain ⟨way, place, reachable⟩ := (reached _).1 h
  obtain rfl : ["gen", "c.py"] = way := (List.cons.inj place).2
  have kept := reachable.unpruned ["gen"] (by simp) (by simp) (by simp)
  revert kept
  decide +kernel

end CodeGraph.Files
