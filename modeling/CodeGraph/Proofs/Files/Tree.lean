import CodeGraph.Files.Resolve
import CodeGraph.Proofs.Import.Relative

/-!
# Trees of files

A disk is a tree if it has no links and if the names in each folder lead down and differ from each
other (`IsTree`).  In a tree a location says where it leads: looking at it finds the node that
stands there, if the location is not too long (`IsTree.opens`), and resolving it changes nothing
(`IsTree.resolvePlace_eq`).  Two trees that are listed in different orders have the same files
(`SameTree.at?_file`).
-/

namespace CodeGraph.Files

open CodeGraph.Text

namespace Node

/-! ## Entries of a folder -/

section Entries

variable {entries : List (String × Node)} {name : String} {node : Node}

@[grind →]
theorem mem_of_child? (h : child? name entries = some node) : (name, node) ∈ entries := by
  induction entries with
  | nil => cases h
  | cons entry rest ih => grind

/-- Where names differ, the entry of a name is the one that stands there. -/
theorem child?_eq_some_iff (distinct : (entries.map Prod.fst).Nodup) :
    child? name entries = some node ↔ (name, node) ∈ entries := by
  refine ⟨mem_of_child?, fun h => ?_⟩
  induction entries with
  | nil => cases h
  | cons entry rest ih =>
    rw [List.map_cons, List.nodup_cons] at distinct
    -- an entry behind the first one has another name
    grind

end Entries

theorem at?_append (node : Node) (front back : Location) :
    node.at? (front ++ back) = (node.at? front).bind fun inner => inner.at? back := by
  induction front generalizing node with
  | nil => rfl
  | cons name front ih =>
    rw [List.cons_append, at?, at?]
    cases child? name node.entries with
    | none => rfl
    | some inner => exact ih inner

/-! ## Names -/

mutual

/-- In every folder the names lead down and differ from each other. -/
def isNamed : Node → Bool
  | file _ => true
  | link _ => true
  | folder entries => decide (entries.map Prod.fst).Nodup && isNamedAmong entries

/-- The names of some entries lead down, and so do all names below them. -/
def isNamedAmong : List (String × Node) → Bool
  | [] => true
  | (name, node) :: rest =>
    decide (Path.IsName name.toList) && node.isNamed && isNamedAmong rest

end

theorem isNamedAmong_iff {entries : List (String × Node)} :
    isNamedAmong entries = true ↔
      ∀ name node, (name, node) ∈ entries → Path.IsName name.toList ∧ node.isNamed = true := by
  induction entries with
  | nil => simp [isNamedAmong]
  | cons entry rest ih =>
    obtain ⟨first, head⟩ := entry
    rw [isNamedAmong, Bool.and_eq_true, Bool.and_eq_true, decide_eq_true_iff, ih]
    grind

@[simp]
theorem isNamed_folder_iff {entries : List (String × Node)} :
    (folder entries).isNamed = true ↔ (entries.map Prod.fst).Nodup ∧
      ∀ name node, (name, node) ∈ entries → Path.IsName name.toList ∧ node.isNamed = true := by
  rw [isNamed, Bool.and_eq_true, decide_eq_true_iff, isNamedAmong_iff]

/-- The names that lead to a node of a disk lead down. -/
theorem isNamed_at? {disk node : Node} {place : Location} (named : disk.isNamed = true)
    (h : disk.at? place = some node) :
    node.isNamed = true ∧ ∀ name ∈ place, Path.IsName name.toList := by
  induction place generalizing disk with
  | nil =>
    cases h
    exact ⟨named, fun _ h => by cases h⟩
  | cons name rest ih =>
    obtain ⟨inner, entry, below⟩ := Option.bind_eq_some_iff.1 h
    cases disk with
    | file content => cases entry
    | link target => cases entry
    | folder entries =>
      obtain ⟨-, inside⟩ := isNamed_folder_iff.1 named
      obtain ⟨here, further⟩ := inside name inner (mem_of_child? entry)
      obtain ⟨node, later⟩ := ih further below
      exact ⟨node, List.forall_mem_cons.2 ⟨here, later⟩⟩

/-! ## Trees -/

theorem linkCount_le_of_mem {entries : List (String × Node)} {name : String} {node : Node}
    (h : (name, node) ∈ entries) : node.linkCount ≤ linkCountAmong entries := by
  induction entries with
  | nil => cases h
  | cons entry rest ih =>
    obtain ⟨first, head⟩ := entry
    rw [linkCountAmong]
    rcases List.mem_cons.1 h with same | later
    · cases same
      exact Nat.le_add_right ..
    · exact (ih later).trans (Nat.le_add_left ..)

theorem linkCount_at?_le {disk node : Node} {place : Location} (h : disk.at? place = some node) :
    node.linkCount ≤ disk.linkCount := by
  induction place generalizing disk with
  | nil =>
    cases h
    exact le_rfl
  | cons name rest ih =>
    obtain ⟨inner, entry, below⟩ := Option.bind_eq_some_iff.1 h
    cases disk with
    | file content => cases entry
    | link target => cases entry
    | folder entries => exact (ih below).trans (linkCount_le_of_mem (mem_of_child? entry))

/-- No links, and names that lead down and differ within each folder. -/
structure IsTree (disk : Node) : Prop where
  named : disk.isNamed = true
  unlinked : disk.linkCount = 0

namespace IsTree

variable {disk node : Node} {place : Location}

theorem below (tree : disk.IsTree) (h : disk.at? place = some node) : node.IsTree where
  named := (isNamed_at? tree.named h).1
  unlinked := Nat.le_zero.1 (tree.unlinked ▸ linkCount_at?_le h)

theorem names (tree : disk.IsTree) (h : disk.at? place = some node) :
    ∀ name ∈ place, Path.IsName name.toList :=
  (isNamed_at? tree.named h).2

theorem at?_ne_link (tree : disk.IsTree) (target : String) :
    disk.at? place ≠ some (link target) := by
  intro h
  have := (tree.below h).unlinked
  rw [linkCount] at this
  cases this

/-- What is no file is a folder. -/
theorem file_or_folder (tree : disk.IsTree) :
    (∃ content, disk = file content) ∨ ∃ entries, disk = folder entries := by
  cases disk with
  | file content => exact Or.inl ⟨content, rfl⟩
  | link target =>
    have here : (link target).at? [] = some (link target) := rfl
    exact absurd here (tree.at?_ne_link target)
  | folder entries => exact Or.inr ⟨entries, rfl⟩

end IsTree

/-- The same files and folders, in whatever order they are listed. -/
def SameTree (a b : Node) : Prop := ∀ place, (a.at? place).map content? = (b.at? place).map content?

@[simp]
theorem content?_eq_some_iff {node : Node} {content : List UInt8} :
    node.content? = some content ↔ node = file content := by
  cases node <;> simp [content?]

theorem SameTree.at?_file {a b : Node} (same : a.SameTree b) (place : Location)
    (content : List UInt8) :
    a.at? place = some (file content) ↔ b.at? place = some (file content) := by
  have seen (disk : Node) : disk.at? place = some (file content) ↔
      (disk.at? place).map content? = some (some content) := by
    rw [Option.map_eq_some_iff]
    constructor
    · intro h
      exact ⟨_, h, rfl⟩
    · rintro ⟨node, h, holds⟩
      rw [h, content?_eq_some_iff.1 holds]
  rw [seen a, seen b, same place]

/-- The order in which a folder is listed does not matter. -/
theorem sameTree_of_perm {entries listed : List (String × Node)}
    (distinct : (entries.map Prod.fst).Nodup) (perm : entries.Perm listed) :
    (folder entries).SameTree (folder listed) := by
  rintro (_ | ⟨name, rest⟩)
  · rfl
  · have distinct' := ((perm.map Prod.fst).nodup_iff).1 distinct
    have same : child? name entries = child? name listed :=
      Option.ext fun node => by
        rw [child?_eq_some_iff distinct, child?_eq_some_iff distinct', perm.mem_iff]
    have step : (folder entries).at? (name :: rest) = (folder listed).at? (name :: rest) := by
      rw [Node.at?, Node.at?, Node.entries, Node.entries, same]
    rw [step]

end Node

open Node

/-! ## Looking and resolving -/

/-- A location that is not too long to be looked at. -/
structure Location.Fits (place : Location) : Prop where
  names : ∀ name ∈ place, name.utf8ByteSize ≤ maxNameSize
  text : place.text.utf8ByteSize ≤ maxPathSize

instance (place : Location) : Decidable place.Fits :=
  decidable_of_iff ((∀ name ∈ place, name.utf8ByteSize ≤ maxNameSize) ∧
    place.text.utf8ByteSize ≤ maxPathSize) ⟨fun h => ⟨h.1, h.2⟩, fun h => ⟨h.names, h.text⟩⟩

/-- The node stands at the location, and looking there finds it. -/
structure Node.Opens (disk : Node) (place : Location) (node : Node) : Prop where
  stands : disk.at? place = some node
  found : present? disk place = .ok (some node)

section Tree

variable {disk node : Node} {here place : Location}

theorem Node.IsTree.follow_eq (tree : disk.IsTree) (links : Nat)
    (h : disk.at? (here ++ place) = some node)
    (short : ∀ name ∈ place, name.utf8ByteSize ≤ maxNameSize) :
    follow disk .look links here (place.map String.toList) = .ok (.taken (here ++ place)) := by
  induction place generalizing here with
  | nil => rw [List.map_nil, follow, List.append_nil]
  | cons name rest ih =>
    obtain ⟨size, later⟩ := List.forall_mem_cons.1 short
    have step : here ++ name :: rest = (here ++ [name]) ++ rest := by simp
    have isName := tree.names h name (by simp)
    have plain := not_or.2 ⟨isName.ne_nil, isName.ne_dot⟩
    rw [at?_append] at h
    obtain ⟨around, stands, below⟩ := Option.bind_eq_some_iff.1 h
    obtain ⟨inner, entry, further⟩ := Option.bind_eq_some_iff.1 below
    have child : disk.at? (here ++ [name]) = some inner := by
      rw [at?_append, stands, Option.bind_some, at?, entry]
      rfl
    have inside : disk.at? ((here ++ [name]) ++ rest) = some node := by
      rw [at?_append, child, Option.bind_some, further]
    rcases (tree.below stands).file_or_folder with ⟨content, rfl⟩ | ⟨entries, rfl⟩
    · cases entry
    · have found : child? name entries = some inner := entry
      rw [List.map_cons, follow, stands]
      simp only [if_neg plain, if_neg isName.ne_dots, String.ofList_toList]
      rw [if_neg (by simp), if_neg (Nat.not_lt.2 size), found, step]
      cases inner with
      | link target => exact absurd child (tree.at?_ne_link target)
      | file content => exact ih inside later
      | folder inner => exact ih inside later

/-- In a tree looking at a location finds the node that stands there. -/
theorem Node.IsTree.opens (tree : disk.IsTree) (h : disk.at? place = some node)
    (fits : place.Fits) : disk.Opens place node where
  stands := h
  found := by
    have followed := @IsTree.follow_eq disk node [] place tree maxLinks h fits.names
    rw [present?, nodeOf, followPlace, followWithin, if_neg (Nat.not_lt.2 fits.text), followed,
      List.nil_append, nodeAt, h]
    rfl

theorem Node.IsTree.resolveFrom_eq (tree : disk.IsTree) (depth : Nat) (underway : List Location)
    (names : ∀ name ∈ place, Path.IsName name.toList) :
    resolveFrom disk depth underway here (place.map String.toList) = (here ++ place, true) := by
  induction place generalizing here with
  | nil => rw [List.map_nil, resolveFrom, List.append_nil]
  | cons name rest ih =>
    obtain ⟨first, later⟩ := List.forall_mem_cons.1 names
    have plain := not_or.2 ⟨first.ne_nil, first.ne_dot⟩
    have further := @ih (here ++ [name]) later
    rw [List.append_assoc, List.singleton_append] at further
    rw [List.map_cons, resolveFrom, if_neg plain, if_neg first.ne_dots]
    simp only [String.ofList_toList]
    split
    · next target h => exact absurd h (tree.at?_ne_link target)
    · exact further

/-- In a tree resolving a location changes nothing. -/
theorem Node.IsTree.resolvePlace_eq (tree : disk.IsTree)
    (names : ∀ name ∈ place, Path.IsName name.toList) : resolvePlace disk place = .ok place := by
  rw [resolvePlace, settle, tree.resolveFrom_eq _ _ names]
  rfl

end Tree

/-- Nothing is found below a name that the topmost folder does not have. -/
theorem content?_of_missing {entries : List (String × Node)} {name : String} {rest : Location}
    (isName : Path.IsName name.toList) (missing : Node.child? name entries = none)
    (short : name.utf8ByteSize ≤ maxNameSize)
    (within : (Location.text (name :: rest)).utf8ByteSize ≤ maxPathSize) :
    content? (.folder entries) (name :: rest) = .ok none := by
  have plain := not_or.2 ⟨isName.ne_nil, isName.ne_dot⟩
  have none : nodeOf (.folder entries) (name :: rest) = .error .notFound := by
    rw [nodeOf, followPlace, followWithin, if_neg (Nat.not_lt.2 within), List.map_cons, follow]
    simp only [Node.at?, if_neg plain, if_neg isName.ne_dots, String.ofList_toList]
    rw [if_neg (by simp), if_neg (Nat.not_lt.2 short), missing]
    by_cases last : rest = []
    · simp [last, nodeAt]
    · simp [last, nodeAt]
  rw [content?, present?, none]
  rfl

end CodeGraph.Files
