import CodeGraph.Files.Walk
import CodeGraph.Proofs.Import.Relative
import CodeGraph.Proofs.Text.Runs

/-!
# Paths from a root

The patterns of a project see an entry by the names that lead to it from the root
(`ignoresEntry_append`, `isIgnored_append`).  Such names are written with slashes between them and
none at either end, so writing an entry as a folder adds one slash (`asFolder_relativeText`).
Locations with different names have different texts (`text_inj`).
-/

namespace CodeGraph.Files

open CodeGraph.Ignore CodeGraph.Text

variable {names : Location}

/-! ## Below a root -/

@[simp]
theorem below?_append (root names : Location) : below? root (root ++ names) = some names := by
  rw [below?, if_pos (List.isPrefixOf_iff_prefix.2 (List.prefix_append root names)),
    List.drop_left]

@[simp]
theorem ignoresEntry_append (matcher : Matcher) (root names : Location) (name : String)
    (isFolder : Bool) :
    ignoresEntry matcher root (root ++ names) name isFolder =
      matcher.ignores (relativeText (names ++ [name])) isFolder := by
  simp [ignoresEntry]

@[simp]
theorem isIgnored_append (matcher : Matcher) (root names : Location) :
    isIgnored matcher root (root ++ names) = matcher.ignores (relativeText names) false := by
  simp [isIgnored]

/-! ## The text of names -/

theorem relativeText_of_ne_nil (some : names ≠ []) :
    relativeText names = joinWith '/' (names.map String.toList) := by
  rw [relativeText, if_neg some, Path.join, String.toList_ofList]

/-- A path below a folder goes on with a slash. -/
theorem relativeText_append {inner : Location} (some : names ≠ []) (more : inner ≠ []) :
    relativeText (names ++ inner) = relativeText names ++ '/' :: relativeText inner := by
  rw [relativeText_of_ne_nil (List.append_ne_nil_of_left_ne_nil some inner),
    relativeText_of_ne_nil some, relativeText_of_ne_nil more, List.map_append,
    joinWith_append (by simpa using more), closed_eq (by simpa using some)]
  simp

section Named

variable (named : ∀ name ∈ names, Path.IsName name.toList) (some : names ≠ [])

include named some

theorem exists_last_relativeText : ∃ front c, relativeText names = front ++ [c] ∧ c ≠ '/' := by
  rw [relativeText_of_ne_nil some]
  apply Path.exists_last
  · intro folder h
    obtain ⟨name, hname, rfl⟩ := List.mem_map.1 h
    exact named name hname
  · simpa using some

/-- Written as a folder a path has one slash more. -/
theorem asFolder_relativeText : asFolder (relativeText names) = relativeText names ++ ['/'] := by
  obtain ⟨front, c, whole, other⟩ := exists_last_relativeText named some
  have stops : Stops (· = '/') (relativeText names).reverse := by
    rw [whole, List.reverse_append]
    exact stops_cons (decide_eq_false other) _
  rw [asFolder, dropEnd, stops.dropWhile, List.reverse_reverse]

/-- A path is tried as it is written and with a slash at its end, whatever it leads to. -/
theorem ignores_relativeText (matcher : Matcher) (isFolder : Bool) :
    matcher.ignores (relativeText names) isFolder =
      (matcher (relativeText names) || matcher (relativeText names ++ ['/'])) := by
  obtain ⟨front, c, whole, other⟩ := exists_last_relativeText named some
  have last : (relativeText names).getLast? ≠ Option.some '/' := by
    rw [whole, List.getLast?_concat]
    simpa using other
  rw [Matcher.ignores, asFolder_relativeText named some, decide_eq_true last, Bool.or_true,
    Bool.true_and]

end Named

/-! ## The text of a location -/

theorem joinWith_inj {a b : List (List Char)} (ha : ∀ name ∈ a, Path.IsName name)
    (hb : ∀ name ∈ b, Path.IsName name) (h : joinWith '/' a = joinWith '/' b) : a = b := by
  have empty {names : List (List Char)} (named : ∀ name ∈ names, Path.IsName name)
      (h : joinWith '/' names = []) : names = [] := by
    by_contra some
    exact joinWith_ne_nil some (fun name hname => (named name hname).ne_nil) h
  by_cases none : a = []
  · subst none
    exact (empty hb h.symm).symm
  · have some : b ≠ [] := by
      rintro rfl
      exact none (empty ha h)
    rw [← cutAt_joinWith none fun name hname => (ha name hname).free, h,
      cutAt_joinWith some fun name hname => (hb name hname).free]

theorem text_inj {a b : Location} (ha : ∀ name ∈ a, Path.IsName name.toList)
    (hb : ∀ name ∈ b, Path.IsName name.toList) (h : a.text = b.text) : a = b := by
  have listed {place : Location} (named : ∀ name ∈ place, Path.IsName name.toList) :
      ∀ name ∈ place.map String.toList, Path.IsName name := by
    intro name hname
    obtain ⟨name, h, rfl⟩ := List.mem_map.1 hname
    exact named name h
  have joined : joinWith '/' (a.map String.toList) = joinWith '/' (b.map String.toList) := by
    have := congrArg String.toList h
    simpa [Location.text, Path.join] using this
  exact List.map_injective_iff.2 (fun _ _ => String.toList_inj.1)
    (joinWith_inj (listed ha) (listed hb) joined)

end CodeGraph.Files
