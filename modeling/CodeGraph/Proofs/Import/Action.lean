import CodeGraph.Proofs.Import.Relative

/-!
# Relative paths act on files

A plain path is one whose segments are all names.  In a file with a plain path every relative path
leads to a plain path or to the top (`isPlain_resolveRelative`).  What is reached depends only on
the folders in which the file lies, so following two paths one after the other is following them at
once (`resolveRelative_append`), and going up at least as often as there are folders ends at the top
(`resolveRelative_ascent`).
-/

namespace CodeGraph

open CodeGraph.Text

/-! ## Plain paths -/

/-- A path of names: no slash at its ends or next to another, no segment of one dot or two. -/
def Path.IsPlain (path : List Char) : Prop := ∀ segment ∈ cutAt '/' path, Path.IsName segment

instance (path : List Char) : Decidable (Path.IsPlain path) :=
  inferInstanceAs (Decidable (∀ segment ∈ cutAt '/' path, Path.IsName segment))

theorem Path.isPlain_joinWith {names : List (List Char)} (some : names ≠ [])
    (h : ∀ name ∈ names, Path.IsName name) : Path.IsPlain (joinWith '/' names) := by
  unfold Path.IsPlain
  rwa [cutAt_joinWith some fun name hname => (h name hname).free]

/-- The folders on a path: its segments but the last. -/
def Path.folders (path : List Char) : List (List Char) := (cutAt '/' path).dropLast

theorem Path.length_folders (path : List Char) : (Path.folders path).length = path.count '/' := by
  rw [Path.folders, List.length_dropLast, length_cutAt]
  omega

theorem Path.folders_append_cons {base : List Char} (free : '/' ∉ base) (path : List Char) :
    Path.folders (path ++ '/' :: base) = cutAt '/' path := by
  rw [Path.folders, cutAt_append_cons, cutAt_of_notMem free, List.dropLast_concat]

namespace Path.IsPlain

variable {file : List Char}

theorem folders (plain : Path.IsPlain file) : ∀ folder ∈ Path.folders file, Path.IsName folder :=
  fun folder h => plain folder (List.dropLast_subset _ h)

/-- A plain path is its folders and then a name without slashes. -/
theorem exists_base (file : List Char) :
    ∃ base, '/' ∉ base ∧ file = joinWith '/' (Path.folders file ++ [base]) := by
  refine ⟨(cutAt '/' file).getLast (cutAt_ne_nil '/' file), ?_, ?_⟩
  · exact not_mem_of_mem_cutAt (List.getLast_mem _)
  · simp [Path.folders, List.dropLast_append_getLast]

end Path.IsPlain

namespace Import

/-! ## What is reached -/

/-- The names on the way to where `path` leads from some folders. -/
def follow (folders : List (List Char)) (path : List Char) : List (List Char) :=
  (cutAt '/' path).foldl applySegment folders

theorem resolveRelative_eq {file : List Char} (plain : Path.IsPlain file) (path : List Char) :
    resolveRelative file path = joinWith '/' (follow (Path.folders file) path) := by
  obtain ⟨base, free, whole⟩ := Path.IsPlain.exists_base file
  have resolved := resolveRelative_joinWith plain.folders free path
  rwa [← whole] at resolved

/-- One segment of a path leads from names to names. -/
theorem isName_applySegment {names : List (List Char)} {segment : List Char}
    (h : ∀ name ∈ names, Path.IsName name) (free : '/' ∉ segment) :
    ∀ name ∈ applySegment names segment, Path.IsName name := by
  intro name hname
  unfold applySegment at hname
  split_ifs at hname with stays up
  · exact h name hname
  · exact h name (List.dropLast_subset _ hname)
  · rcases List.mem_append.1 hname with before | last
    · exact h name before
    · rw [not_or] at stays
      rw [List.mem_singleton.1 last]
      exact ⟨stays.1, stays.2, up, free⟩

theorem isName_foldl_applySegment {names segments : List (List Char)}
    (h : ∀ name ∈ names, Path.IsName name) (free : ∀ segment ∈ segments, '/' ∉ segment) :
    ∀ name ∈ segments.foldl applySegment names, Path.IsName name := by
  induction segments generalizing names with
  | nil => exact h
  | cons segment segments ih =>
    obtain ⟨first, later⟩ := List.forall_mem_cons.1 free
    exact ih (isName_applySegment h first) later

theorem isName_follow {folders : List (List Char)} (h : ∀ folder ∈ folders, Path.IsName folder)
    (path : List Char) : ∀ name ∈ follow folders path, Path.IsName name :=
  isName_foldl_applySegment h fun _ => not_mem_of_mem_cutAt

@[simp]
theorem follow_append (folders : List (List Char)) (p q : List Char) :
    follow folders (p ++ '/' :: q) = follow (follow folders p) q := by
  rw [follow, cutAt_append_cons, List.foldl_append]
  rfl

@[simp]
theorem follow_of_isPlain {target : List Char} (plain : Path.IsPlain target)
    (folders : List (List Char)) : follow folders target = folders ++ cutAt '/' target :=
  foldl_applySegment_names plain folders

/-! ## Up -/

/-- The path that goes up `n` folders. -/
def ascent (n : Nat) : List Char := (List.replicate n "../".toList).flatten

theorem ascent_eq (n : Nat) : ascent n = closed '/' (List.replicate n ['.', '.']) := by
  rw [ascent, closed, List.flatMap_replicate]
  rfl

theorem follow_ascent (n : Nat) (folders : List (List Char)) (path : List Char) :
    follow folders (ascent n ++ path) = follow (folders.take (folders.length - n)) path := by
  have free : ∀ segment ∈ List.replicate n ['.', '.'], '/' ∉ segment := by
    intro segment h
    rw [List.eq_of_mem_replicate h]
    decide
  rw [follow, ascent_eq, cutAt_closed_append free, List.foldl_append, foldl_applySegment_up]
  rfl

theorem follow_ascent_top {n : Nat} {folders : List (List Char)} (h : folders.length ≤ n)
    (path : List Char) : follow folders (ascent n ++ path) = follow [] path := by
  rw [follow_ascent, Nat.sub_eq_zero_of_le h, List.take_zero]

/-! ## The laws -/

section Laws

variable {file : List Char}

theorem isPlain_resolveRelative (plain : Path.IsPlain file) (path : List Char) :
    resolveRelative file path = [] ∨ Path.IsPlain (resolveRelative file path) := by
  rw [resolveRelative_eq plain]
  by_cases top : follow (Path.folders file) path = []
  · rw [top]
    exact Or.inl rfl
  · exact Or.inr (Path.isPlain_joinWith top (isName_follow plain.folders path))

theorem resolveRelative_ascent (plain : Path.IsPlain file) {n : Nat} (h : file.count '/' ≤ n)
    (path : List Char) :
    resolveRelative file (ascent n ++ path) = joinWith '/' (follow [] path) := by
  rw [← Path.length_folders] at h
  rw [resolveRelative_eq plain, follow_ascent_top h]

theorem resolveRelative_append (plain : Path.IsPlain file) {p : List Char}
    (inside : resolveRelative file p ≠ []) (q : List Char) :
    resolveRelative file (p ++ '/' :: q) =
      resolveRelative (resolveRelative file p ++ "/x".toList) q := by
  have name : '/' ∉ ['x'] := by decide
  have reached : Path.IsPlain (resolveRelative file p) :=
    (isPlain_resolveRelative plain p).resolve_left inside
  -- the file `x` in the folder reached is plain as well, and lies in what was followed
  have beside : Path.IsPlain (resolveRelative file p ++ '/' :: ['x']) := by
    intro segment h
    rw [cutAt_append_cons, cutAt_of_notMem name, List.mem_append] at h
    rcases h with h | h
    · exact reached segment h
    · rw [List.mem_singleton.1 h]
      decide
  have some : follow (Path.folders file) p ≠ [] := by
    intro top
    rw [resolveRelative_eq plain, top] at inside
    exact inside rfl
  have folders : Path.folders (resolveRelative file p ++ '/' :: ['x']) =
      follow (Path.folders file) p := by
    rw [Path.folders_append_cons name, resolveRelative_eq plain]
    exact cutAt_joinWith some fun name h => (isName_follow plain.folders p name h).free
  calc resolveRelative file (p ++ '/' :: q)
      = joinWith '/' (follow (follow (Path.folders file) p) q) := by
        simp [resolveRelative_eq plain]
    _ = resolveRelative (resolveRelative file p ++ '/' :: ['x']) q := by
        rw [resolveRelative_eq beside, folders]

/-- Resolving relative paths in a file with a plain path.  What is reached is plain or the top,
which no number of steps up leaves: going up further than the file is deep is starting in a file at
the top.  Paths with a slash between them are followed one after the other, and every plain path is
reached by going up as often as the file has folders. -/
theorem resolveRelative_action (plain : Path.IsPlain file) :
    (∀ path, resolveRelative file path = [] ∨ Path.IsPlain (resolveRelative file path)) ∧
      (∀ n top path, file.count '/' ≤ n → '/' ∉ top →
        resolveRelative file (ascent n ++ path) = resolveRelative top path) ∧
      (∀ p q, resolveRelative file p ≠ [] →
        resolveRelative file (p ++ '/' :: q) =
          resolveRelative (resolveRelative file p ++ "/x".toList) q) ∧
      ∀ target, Path.IsPlain target →
        resolveRelative file (ascent (file.count '/') ++ target) = target := by
  refine ⟨isPlain_resolveRelative plain, ?_, ?_, ?_⟩
  · intro n top path h free
    have none : ∀ folder ∈ ([] : List (List Char)), Path.IsName folder := by simp
    have atTop := resolveRelative_joinWith none free path
    rw [resolveRelative_ascent plain h]
    exact atTop.symm
  · intro p q inside
    exact resolveRelative_append plain inside q
  · intro target named
    rw [resolveRelative_ascent plain le_rfl, follow_of_isPlain named, List.nil_append,
      joinWith_cutAt]

/-- A file two folders deep, with slashes next to each other and more steps up than folders. -/
theorem resolveRelative_action_nested :
    Path.IsPlain "src/app/main.ts".toList ∧ Path.IsPlain "lib/util".toList ∧
      resolveRelative "src/app/main.ts".toList "/.//core/".toList ≠ [] ∧
      resolveRelative "src/app/main.ts".toList ("/.//core/".toList ++ '/' :: "../../../db".toList) =
        resolveRelative (resolveRelative "src/app/main.ts".toList "/.//core/".toList ++ "/x".toList)
          "../../../db".toList ∧
      resolveRelative "src/app/main.ts".toList "../../../../db".toList =
        resolveRelative "x".toList "db".toList ∧
      resolveRelative "src/app/main.ts".toList "../../lib/util".toList = "lib/util".toList := by
  have plain : Path.IsPlain "src/app/main.ts".toList := by decide
  have target : Path.IsPlain "lib/util".toList := by decide
  have inside : resolveRelative "src/app/main.ts".toList "/.//core/".toList ≠ [] := by decide
  obtain ⟨-, up, along, reach⟩ := resolveRelative_action plain
  refine ⟨plain, target, inside, along _ _ inside, ?_, reach _ target⟩
  exact up 4 "x".toList "db".toList (by decide) (by decide)

end Laws

end Import

end CodeGraph
