import CodeGraph.Import.Target
import CodeGraph.Proofs.Text.Pieces

/-!
# Relative imports

A path whose segments are names stands for the list of these names.  Resolving a relative path in a
file works on the names of the folders that the file lies in (`resolveRelative_joinWith`): two dots
drop the last one, if there is one, and names are added (`foldl_applySegment_up`,
`foldl_applySegment_names`). So a dotted module of Python means what its dots say
(`resolveRelative_modulePath`): one dot is the folder of the file, every further dot is one folder
less, and the names behind the dots lead down.
-/

namespace CodeGraph

open CodeGraph.Text

/-! ## Names in paths -/

/-- A segment of a path that leads down: not empty, neither one dot nor two, and without a slash. -/
structure Path.IsName (segment : List Char) : Prop where
  ne_nil : segment ≠ []
  ne_dot : segment ≠ ['.']
  ne_dots : segment ≠ ['.', '.']
  free : '/' ∉ segment

instance (segment : List Char) : Decidable (Path.IsName segment) :=
  decidable_of_iff (segment ≠ [] ∧ segment ≠ ['.'] ∧ segment ≠ ['.', '.'] ∧ '/' ∉ segment)
    ⟨fun h => ⟨h.1, h.2.1, h.2.2.1, h.2.2.2⟩, fun h => ⟨h.ne_nil, h.ne_dot, h.ne_dots, h.free⟩⟩

theorem Path.isName_of_dot_notMem {segment : List Char} (some : segment ≠ []) (dot : '.' ∉ segment)
    (slash : '/' ∉ segment) : Path.IsName segment := by
  refine ⟨some, ?_, ?_, slash⟩
  · rintro rfl
    exact dot List.mem_cons_self
  · rintro rfl
    exact dot List.mem_cons_self

/-! ## The folder of a file -/

section Folder

variable {folders : List (List Char)} {base : List Char}

/-- The path of folders does not end with a slash. -/
theorem Path.exists_last (names : ∀ folder ∈ folders, Path.IsName folder) (some : folders ≠ []) :
    ∃ front c, joinWith '/' folders = front ++ [c] ∧ c ≠ '/' := by
  obtain ⟨outer, inner, rfl⟩ := List.eq_nil_or_concat folders |>.resolve_left some
  have name := names inner (by simp)
  obtain ⟨front, c, rfl⟩ := List.eq_nil_or_concat inner |>.resolve_left name.ne_nil
  refine ⟨closed '/' outer ++ front, c, ?_, ?_⟩
  · rw [List.concat_eq_append, List.concat_eq_append, joinWith_append (by simp), List.append_assoc]
    rfl
  · rintro rfl
    exact name.free (by simp)

theorem Path.directory_joinWith (names : ∀ folder ∈ folders, Path.IsName folder)
    (file : '/' ∉ base) :
    Path.directory (joinWith '/' (folders ++ [base])) = joinWith '/' folders := by
  have skip (front : List Char) :
      (front ++ base).reverse.dropWhile (· ≠ '/') = front.reverse.dropWhile (· ≠ '/') := by
    rw [List.reverse_append, List.dropWhile_append_of_pos]
    intro c hc
    apply decide_eq_true
    rintro rfl
    exact file (List.mem_reverse.1 hc)
  unfold Path.directory
  rw [joinWith_append (List.cons_ne_nil base []), joinWith, skip]
  by_cases top : folders = []
  · subst top
    rfl
  · obtain ⟨front, c, whole, inner⟩ := Path.exists_last names top
    rw [closed_eq top, whole]
    simp [inner]

theorem Import.resolveRelative_joinWith (names : ∀ folder ∈ folders, Path.IsName folder)
    (file : '/' ∉ base) (path : List Char) :
    Import.resolveRelative (joinWith '/' (folders ++ [base])) path =
      joinWith '/' ((cutAt '/' path).foldl Import.applySegment folders) := by
  unfold Import.resolveRelative
  rw [Path.directory_joinWith names file]
  by_cases top : folders = []
  · subst top
    rfl
  · have some : joinWith '/' folders ≠ [] :=
      joinWith_ne_nil top fun folder hfolder => (names folder hfolder).ne_nil
    have start : cutAt '/' (joinWith '/' folders) = folders :=
      cutAt_joinWith top fun folder hfolder => (names folder hfolder).free
    simp only [List.isEmpty_iff, if_neg some, start]

end Folder

namespace Import

/-! ## Walking along segments -/

variable {segments names : List (List Char)}

theorem foldl_applySegment_names (h : ∀ name ∈ names, Path.IsName name)
    (segments : List (List Char)) : names.foldl applySegment segments = segments ++ names := by
  induction names generalizing segments with
  | nil => simp
  | cons name names ih =>
    obtain ⟨first, later⟩ := List.forall_mem_cons.1 h
    have step : applySegment segments name = segments ++ [name] := by
      rw [applySegment, if_neg (by simp [first.ne_nil, first.ne_dot]), if_neg first.ne_dots]
    rw [List.foldl_cons, step, ih later, List.append_assoc, List.singleton_append]

theorem foldl_applySegment_up (n : Nat) (segments : List (List Char)) :
    (List.replicate n ['.', '.']).foldl applySegment segments =
      segments.take (segments.length - n) := by
  induction n generalizing segments with
  | zero => simp
  | succ n ih =>
    have step : applySegment segments ['.', '.'] = segments.dropLast := by
      rw [applySegment, if_neg (by decide), if_pos rfl]
    rw [List.replicate_succ, List.foldl_cons, step, ih, List.length_dropLast,
      List.dropLast_eq_take, List.take_take]
    congr 1
    omega

/-! ## Dotted modules -/

/-- The segments for the dots in front of a module: one dot stays, more go up. -/
def climb (dots : Nat) : List (List Char) :=
  if dots = 1 then [['.']] else List.replicate (dots - 1) ['.', '.']

theorem climb_ne_nil {dots : Nat} (h : 1 ≤ dots) : climb dots ≠ [] := by
  unfold climb
  split_ifs with one
  · simp
  · simp
    omega

theorem slash_notMem_climb (dots : Nat) : ∀ segment ∈ climb dots, '/' ∉ segment := by
  intro segment h
  unfold climb at h
  split_ifs at h
  · rw [List.mem_singleton.1 h]
    decide
  · rw [List.eq_of_mem_replicate h]
    decide

theorem foldl_applySegment_climb (dots : Nat) (segments : List (List Char)) :
    (climb dots).foldl applySegment segments = segments.take (segments.length - (dots - 1)) := by
  unfold climb
  split_ifs with one
  · subst one
    simp [applySegment]
  · exact foldl_applySegment_up (dots - 1) segments

theorem closed_climb (dots : Nat) :
    (if dots = 1 then "./".toList else (List.replicate (dots - 1) "../".toList).flatten) =
      closed '/' (climb dots) := by
  unfold climb closed
  split_ifs with one
  · rfl
  · rw [List.flatMap_replicate]
    rfl

/-- The names behind the dots do not begin with a dot. -/
theorem joinWith_dot_cases (h : ∀ name ∈ names, name ≠ [] ∧ '.' ∉ name) :
    joinWith '.' names = [] ∨ ∃ c rest, joinWith '.' names = c :: rest ∧ c ≠ '.' := by
  cases names with
  | nil => exact Or.inl rfl
  | cons name names =>
    obtain ⟨some, free⟩ := h name List.mem_cons_self
    obtain ⟨c, rest, rfl⟩ := List.exists_cons_of_ne_nil some
    have first : c ≠ '.' := by
      rintro rfl
      exact free List.mem_cons_self
    right
    by_cases last : names = []
    · subst last
      exact ⟨c, rest, rfl, first⟩
    · exact ⟨c, rest ++ '.' :: joinWith '.' names, by rw [joinWith_cons last]; rfl, first⟩

theorem span_dots {rest : List Char} (dots : Nat)
    (h : rest = [] ∨ ∃ c later, rest = c :: later ∧ c ≠ '.') :
    (List.replicate dots '.' ++ rest).takeWhile (· = '.') = List.replicate dots '.' ∧
      (List.replicate dots '.' ++ rest).dropWhile (· = '.') = rest := by
  have all : ∀ c ∈ List.replicate dots '.', decide (c = '.') = true := by
    intro c hc
    exact decide_eq_true (List.eq_of_mem_replicate hc)
  rw [List.takeWhile_append_of_pos all, List.dropWhile_append_of_pos all]
  rcases h with rfl | ⟨c, later, rfl, other⟩
  · simp
  · simp [other]

/-- A module with dots in front is the path that goes up and then down along the names. -/
theorem modulePath_eq {dots : Nat} (some : 1 ≤ dots) (h : ∀ name ∈ names, name ≠ [] ∧ '.' ∉ name) :
    modulePath (List.replicate dots '.' ++ joinWith '.' names) =
      joinWith '/' (climb dots ++ names) := by
  obtain ⟨front, behind⟩ := span_dots dots (joinWith_dot_cases h)
  have free : ∀ name ∈ names, '.' ∉ name := fun name hname => (h name hname).2
  unfold modulePath
  rw [front, behind, List.length_replicate, replaceChar_joinWith '/' free]
  dsimp only
  rw [if_neg (by omega), closed_climb]
  by_cases bare : names = []
  · subst bare
    have none : (joinWith '/' []).isEmpty = true := rfl
    rw [if_pos none, closed_eq (climb_ne_nil some), List.dropLast_concat, List.append_nil]
  · have some : joinWith '/' names ≠ [] := joinWith_ne_nil bare fun name hname => (h name hname).1
    rw [if_neg (by simpa using some), joinWith_append bare]

/-- In a file that lies in some folders, a module with dots in front of its names is the path along
the folders without as many of the last ones as there are dots but the first, and then along the
names. -/
theorem resolveRelative_modulePath (folders names : List (List Char)) (base : List Char)
    (dots : Nat) (inside : ∀ folder ∈ folders, Path.IsName folder) (file : '/' ∉ base)
    (some : 1 ≤ dots) (plain : ∀ name ∈ names, name ≠ [] ∧ '.' ∉ name ∧ '/' ∉ name) :
    resolveRelative (joinWith '/' (folders ++ [base]))
        (modulePath (List.replicate dots '.' ++ joinWith '.' names)) =
      joinWith '/' (folders.take (folders.length - (dots - 1)) ++ names) := by
  have down : ∀ name ∈ names, Path.IsName name := by
    intro name hname
    obtain ⟨filled, dot, slash⟩ := plain name hname
    exact Path.isName_of_dot_notMem filled dot slash
  have free : ∀ segment ∈ climb dots ++ names, '/' ∉ segment := by
    intro segment hsegment
    rcases List.mem_append.1 hsegment with up | name
    · exact slash_notMem_climb dots segment up
    · exact (down segment name).free
  have segments : cutAt '/' (joinWith '/' (climb dots ++ names)) = climb dots ++ names :=
    cutAt_joinWith (by simp [climb_ne_nil some]) free
  rw [modulePath_eq some fun name hname => ⟨(plain name hname).1, (plain name hname).2.1⟩,
    resolveRelative_joinWith inside file, segments, List.foldl_append, foldl_applySegment_climb,
    foldl_applySegment_names down]

/-- Four dots in a file two folders deep go no further up than to the top. -/
theorem resolveRelative_modulePath_top :
    (∀ folder ∈ ["app".toList, "web".toList], Path.IsName folder) ∧ '/' ∉ "views.py".toList ∧
      (∀ name ∈ ["core".toList, "models".toList], name ≠ [] ∧ '.' ∉ name ∧ '/' ∉ name) ∧
      resolveRelative "app/web/views.py".toList (modulePath "....core.models".toList) =
        "core/models".toList := by
  have inside : ∀ folder ∈ ["app".toList, "web".toList], Path.IsName folder := by decide
  have file : '/' ∉ "views.py".toList := by decide
  have plain : ∀ name ∈ ["core".toList, "models".toList], name ≠ [] ∧ '.' ∉ name ∧ '/' ∉ name := by
    decide
  have resolved := resolveRelative_modulePath _ _ _ 4 inside file (by decide) plain
  have written : joinWith '/' (["app".toList, "web".toList] ++ ["views.py".toList]) =
      "app/web/views.py".toList := by decide
  have dotted : List.replicate 4 '.' ++ joinWith '.' ["core".toList, "models".toList] =
      "....core.models".toList := by decide
  have reached : joinWith '/' (["app".toList, "web".toList].take (2 - (4 - 1)) ++
      ["core".toList, "models".toList]) = "core/models".toList := by decide
  rw [written, dotted] at resolved
  exact ⟨inside, file, plain, resolved.trans reached⟩

end Import

end CodeGraph
