import CodeGraph.Files.Walk
import CodeGraph.Proofs.Files.Tree
import Mathlib.Data.List.Nodup

/-!
# Entries that a walk comes to

A walk comes to the entries of the folder where it starts and to those of the folders that it enters
(`Met`).  It lists the files among them, and the links that lead to no folder (`mem_walked_iff`).
What stands in a folder that it comes to is come to exactly if the folder is entered
(`met_inside_iff`); in a tree these are the nodes all of whose folders on the way are entered
(`met_iff`), and each file is listed once (`nodup_walked`).
-/

namespace CodeGraph.Files

open CodeGraph.Ignore Node

/-- A walk comes to an entry: it stands in the folder where the walk starts, or in one that is
entered. -/
inductive Met (enters : Location → String → Bool) :
    Location → List (String × Node) → Location → String → Node → Prop
  | entry {here entries name node} (h : (name, node) ∈ entries) :
      Met enters here entries here name node
  | inside {here entries name inner folder below node} (h : (name, .folder inner) ∈ entries)
      (entered : enters here name = true)
      (further : Met enters (here ++ [name]) inner folder below node) :
      Met enters here entries folder below node

variable {disk node : Node} {enters : Location → String → Bool} {here folder way : Location}
  {entries inner : List (String × Node)} {name below : String} {f : FilePlace}

/-! ## Ways into folders -/

/-- All folders on a way down from a location are entered. -/
def Entered (enters : Location → String → Bool) (here way : Location) : Prop :=
  ∀ front name, front ++ [name] <+: way → enters (here ++ front) name = true

@[simp]
theorem entered_nil (enters : Location → String → Bool) (here : Location) :
    Entered enters here [] := by
  intro front name h
  have := List.prefix_nil.1 h
  simp at this

@[simp]
theorem entered_cons : Entered enters here (name :: way) ↔
    enters here name = true ∧ Entered enters (here ++ [name]) way := by
  constructor
  · intro all
    constructor
    · have first := all [] name (List.prefix_append [name] way)
      rwa [List.append_nil] at first
    · intro front below h
      have := all (name :: front) below (List.cons_prefix_cons.2 ⟨rfl, h⟩)
      rwa [List.append_assoc]
  · rintro ⟨first, later⟩ front below h
    cases front with
    | nil =>
      obtain ⟨rfl, -⟩ := List.cons_prefix_cons.1 h
      rwa [List.append_nil]
    | cons other front =>
      obtain ⟨rfl, rest⟩ := List.cons_prefix_cons.1 h
      have := later front below rest
      rwa [List.append_assoc] at this

theorem entered_concat : Entered enters here (way ++ [name]) ↔
    Entered enters here way ∧ enters (here ++ way) name = true := by
  constructor
  · intro all
    exact ⟨fun front below h => all front below (h.trans (List.prefix_append way [name])),
      all way name (List.prefix_refl _)⟩
  · rintro ⟨before, last⟩ front below h
    rcases List.prefix_concat_iff.1 h with whole | h
    · obtain ⟨rfl, same⟩ := List.append_inj' whole rfl
      cases same
      exact last
    · exact before front below h

/-! ## Entries -/

theorem Met.mono {more : List (String × Node)} (met : Met enters here entries folder name node)
    (sub : entries ⊆ more) : Met enters here more folder name node := by
  cases met with
  | entry h => exact .entry (sub h)
  | inside h entered further => exact .inside (sub h) entered further

theorem Met.exists_way (met : Met enters here entries folder name node) :
    ∃ way, folder = here ++ way ∧ Entered enters here way := by
  induction met with
  | entry h => exact ⟨[], by simp, entered_nil enters _⟩
  | @inside here entries name inner folder below node h entered further ih =>
    obtain ⟨way, rfl, all⟩ := ih
    exact ⟨name :: way, by simp, entered_cons.2 ⟨entered, all⟩⟩

theorem Met.further (met : Met enters here entries folder name (.folder inner))
    (entered : enters folder name = true) (h : (below, node) ∈ inner) :
    Met enters here entries (folder ++ [name]) below node := by
  generalize stands : Node.folder inner = around at met
  induction met with
  | entry first =>
    subst stands
    exact .inside first entered (.entry h)
  | inside first through _ ih => exact .inside first through (ih entered stands)

/-- What stands in a folder that a walk comes to is come to exactly if the folder is entered. -/
theorem met_inside_iff (met : Met enters here entries folder name (.folder inner))
    (h : (below, node) ∈ inner) :
    Met enters here entries (folder ++ [name]) below node ↔ enters folder name = true := by
  refine ⟨fun further => ?_, fun entered => met.further entered h⟩
  obtain ⟨way, rfl, -⟩ := met.exists_way
  obtain ⟨longer, same, all⟩ := further.exists_way
  rw [List.append_assoc, List.append_cancel_left_eq] at same
  rw [← same] at all
  exact (entered_concat.1 all).2

/-- In a tree a walk comes to the nodes all of whose folders on the way are entered. -/
theorem met_iff (named : (Node.folder entries).isNamed = true) :
    Met enters here entries folder name node ↔
      ∃ way, folder = here ++ way ∧ (Node.folder entries).at? (way ++ [name]) = some node ∧
        Entered enters here way := by
  constructor
  · intro met
    induction met with
    | entry h =>
      obtain ⟨distinct, -⟩ := isNamed_folder_iff.1 named
      refine ⟨[], by simp, ?_, entered_nil enters _⟩
      rw [List.nil_append, at?, Node.entries, (child?_eq_some_iff distinct).2 h]
      rfl
    | @inside here entries name inner folder below node h entered further ih =>
      obtain ⟨distinct, inside⟩ := isNamed_folder_iff.1 named
      obtain ⟨way, rfl, stands, all⟩ := ih (inside name _ h).2
      refine ⟨name :: way, by simp, ?_, entered_cons.2 ⟨entered, all⟩⟩
      rw [List.cons_append, at?, Node.entries, (child?_eq_some_iff distinct).2 h]
      exact stands
  · rintro ⟨way, rfl, stands, all⟩
    induction way generalizing here entries with
    | nil =>
      obtain ⟨inner, entry, same⟩ := Option.bind_eq_some_iff.1 stands
      cases same
      rw [List.append_nil]
      exact .entry (mem_of_child? entry)
    | cons first way ih =>
      obtain ⟨inner, entry, further⟩ := Option.bind_eq_some_iff.1 stands
      obtain ⟨entered, all⟩ := entered_cons.1 all
      have known := mem_of_child? entry
      cases inner with
      | file content => cases way <;> cases further
      | link target => cases way <;> cases further
      | folder inner =>
        have met := ih ((isNamed_folder_iff.1 named).2 first _ known).2 further all
        rw [List.append_assoc] at met
        exact .inside known entered met

/-! ## Files -/

/-- A walk lists a file, and a link unless it leads to a folder. -/
def isListed (disk : Node) (place : Location) : Node → Bool
  | .file _ => true
  | .link _ => !leadsToFolder disk place
  | .folder _ => false

theorem reachedAmong_eq_flatMap (disk : Node) (enters : Location → String → Bool) (here : Location)
    (entries : List (String × Node)) :
    reachedAmong disk enters here entries =
      entries.flatMap fun entry => reached disk enters here entry.1 entry.2 := by
  induction entries with
  | nil => rfl
  | cons entry rest ih => rw [reachedAmong, ih, List.flatMap_cons]

mutual

theorem exists_met_of_mem_reached (disk : Node) (enters : Location → String → Bool)
    (here : Location) (name : String) (node : Node) (h : f ∈ reached disk enters here name node) :
    ∃ found, Met enters here [(name, node)] f.folder f.name found ∧
      isListed disk f.place found = true := by
  cases node with
  | file content =>
    obtain rfl := List.mem_singleton.1 h
    exact ⟨_, .entry (List.mem_singleton.2 rfl), rfl⟩
  | link target =>
    rw [reached] at h
    split at h
    · cases h
    · next other =>
      obtain rfl := List.mem_singleton.1 h
      exact ⟨_, .entry (List.mem_singleton.2 rfl), by simpa [isListed, FilePlace.place] using other⟩
  | folder entries =>
    rw [reached] at h
    split at h
    · next entered =>
      obtain ⟨found, met, listed⟩ :=
        exists_met_of_mem_reachedAmong disk enters (here ++ [name]) entries h
      exact ⟨found, .inside (List.mem_singleton.2 rfl) entered met, listed⟩
    · cases h

theorem exists_met_of_mem_reachedAmong (disk : Node) (enters : Location → String → Bool)
    (here : Location) (entries : List (String × Node))
    (h : f ∈ reachedAmong disk enters here entries) :
    ∃ found, Met enters here entries f.folder f.name found ∧
      isListed disk f.place found = true := by
  match entries with
  | [] => cases h
  | (name, node) :: rest =>
    rw [reachedAmong, List.mem_append] at h
    rcases h with h | h
    · obtain ⟨found, met, listed⟩ := exists_met_of_mem_reached disk enters here name node h
      exact ⟨found, met.mono (by simp), listed⟩
    · obtain ⟨found, met, listed⟩ := exists_met_of_mem_reachedAmong disk enters here rest h
      exact ⟨found, met.mono (List.subset_cons_self ..), listed⟩

end

theorem mem_reachedAmong_of_met (met : Met enters here entries folder name node)
    (listed : isListed disk (folder ++ [name]) node = true) :
    ⟨folder, name⟩ ∈ reachedAmong disk enters here entries := by
  rw [reachedAmong_eq_flatMap]
  induction met with
  | @entry here entries name node h =>
    refine List.mem_flatMap.2 ⟨_, h, ?_⟩
    cases node with
    | file content => exact List.mem_singleton.2 rfl
    | link target =>
      have other : leadsToFolder disk (here ++ [name]) = false := by simpa [isListed] using listed
      simp [reached, other]
    | folder inner => cases listed
  | @inside here entries name inner folder below node h entered _ ih =>
    refine List.mem_flatMap.2 ⟨_, h, ?_⟩
    rw [← reachedAmong_eq_flatMap] at ih
    rw [reached, if_pos entered]
    exact ih listed

/-- A walk lists the files that it comes to, and the links that lead to no folder. -/
theorem mem_reachedAmong_iff : f ∈ reachedAmong disk enters here entries ↔
    ∃ node, Met enters here entries f.folder f.name node ∧ isListed disk f.place node = true := by
  refine ⟨exists_met_of_mem_reachedAmong disk enters here entries, ?_⟩
  rintro ⟨node, met, listed⟩
  exact mem_reachedAmong_of_met met listed

theorem Met.exists_first (met : Met enters here entries folder name node) :
    ∃ first ∈ entries.map Prod.fst, here ++ [first] <+: folder ++ [name] := by
  cases met with
  | entry h => exact ⟨name, List.mem_map_of_mem h, List.prefix_refl _⟩
  | @inside _ _ first inner _ _ _ h entered further =>
    obtain ⟨way, rfl, -⟩ := further.exists_way
    exact ⟨first, List.mem_map_of_mem h, by simp [List.append_assoc]⟩

/-- What is listed at an entry is not listed at the entries behind it. -/
theorem not_mem_of_mem_reached {rest : List (String × Node)}
    (distinct : name ∉ rest.map Prod.fst) (h : f ∈ reached disk enters here name node) :
    f ∉ reachedAmong disk enters here rest := by
  intro later
  obtain ⟨found, met, -⟩ := exists_met_of_mem_reached disk enters here name node h
  obtain ⟨found', met', -⟩ := exists_met_of_mem_reachedAmong disk enters here rest later
  obtain ⟨first, hfirst, before⟩ := met.exists_first
  obtain ⟨second, hsecond, before'⟩ := met'.exists_first
  have same := List.prefix_of_prefix_length_le before before' (by simp)
  obtain ⟨-, same⟩ := List.append_inj' (same.eq_of_length (by simp)) rfl
  obtain rfl := List.mem_singleton.1 hfirst
  cases same
  exact distinct hsecond

mutual

theorem nodup_reached (disk : Node) (enters : Location → String → Bool) (here : Location)
    (name : String) (node : Node) (named : node.isNamed = true) :
    (reached disk enters here name node).Nodup := by
  cases node with
  | file content => exact List.nodup_singleton _
  | link target =>
    rw [reached]
    split
    · exact List.nodup_nil
    · exact List.nodup_singleton _
  | folder entries =>
    rw [isNamed, Bool.and_eq_true, decide_eq_true_iff] at named
    rw [reached]
    split
    · exact nodup_reachedAmong disk enters (here ++ [name]) entries named.1 named.2
    · exact List.nodup_nil

/-- Where names differ a walk lists each file once. -/
theorem nodup_reachedAmong (disk : Node) (enters : Location → String → Bool) (here : Location)
    (entries : List (String × Node)) (distinct : (entries.map Prod.fst).Nodup)
    (named : isNamedAmong entries = true) : (reachedAmong disk enters here entries).Nodup := by
  match entries with
  | [] => exact List.nodup_nil
  | (name, node) :: rest =>
    rw [isNamedAmong, Bool.and_eq_true, Bool.and_eq_true] at named
    rw [List.map_cons, List.nodup_cons] at distinct
    rw [reachedAmong, List.nodup_append']
    exact ⟨nodup_reached disk enters here name node named.1.2,
      nodup_reachedAmong disk enters here rest distinct.2 named.2,
      fun f h later => not_mem_of_mem_reached distinct.1 h later⟩

end

end CodeGraph.Files
