import CodeGraph.Link.Finder
import CodeGraph.Proofs.Link.Passes

/-!
# A finder finds the links of its batch

What the directory of a batch holds under a key are the declarations of the batch with that key, and
a table of searches that holds for every name its search still does so after it was used.  So a
finder finds the links that `resolve` says, whatever batches it had before (`resolve_eq`).
-/

namespace CodeGraph

/-- The first entry of a table counts. -/
theorem lookup_cons_ite {α : Type} (key other : String) (value : α) (table : List (String × α)) :
    ((key, value) :: table).lookup other =
      if other = key then some value else table.lookup other := by
  rw [List.lookup_cons]
  split_ifs with same
  · rw [same, beq_self_eq_true]
  · rw [beq_false_of_ne same]

/-! ## Directories -/

/-- Groups that hold under every key the declarations of that key still do so with one more. -/
theorem Groups.under_add {key : Declaration → String} {groups : Groups} {ds : List Declaration}
    (h : ∀ k, groups.under k = ds.filter fun d => key d = k) (d : Declaration) (k : String) :
    (groups.add key d).under k = (ds ++ [d]).filter fun d => key d = k := by
  rw [Groups.under, Groups.add, lookup_cons_ite, List.filter_append, ← h]
  split_ifs with same
  · simp [same]
  · simp [Ne.symm same, Groups.under]

namespace Directory

@[simp]
theorem of_append_singleton (ds : List Declaration) (d : Declaration) :
    of (ds ++ [d]) = (of ds).add d := by
  rw [of, List.foldl_append]
  rfl

theorem under_byName (ds : List Declaration) (name : String) :
    (of ds).byName.under name = named ds name := by
  induction ds using List.reverseRecOn generalizing name with
  | nil => rfl
  | append_singleton ds d ih =>
    rw [of_append_singleton]
    exact Groups.under_add ih d name

theorem under_byPath (ds : List Declaration) (path : String) :
    (of ds).byPath.under path = ds.filter fun d => d.path = path := by
  induction ds using List.reverseRecOn generalizing path with
  | nil => rfl
  | append_singleton ds d ih =>
    rw [of_append_singleton]
    exact Groups.under_add ih d path

/-- The directory has the last declaration of an id. -/
theorem withId?_of (ds : List Declaration) (id : String) :
    (of ds).withId? id = ds.reverse.find? fun d => d.id = id := by
  induction ds using List.reverseRecOn with
  | nil => rfl
  | append_singleton ds d ih =>
    rw [of_append_singleton, List.reverse_append, List.reverse_singleton, List.singleton_append,
      List.find?_cons, ← ih, withId?, add, lookup_cons_ite]
    split_ifs with same
    · simp [same]
    · simp [Ne.symm same, withId?]

end Directory

/-! ## Searches -/

theorem CallSearch.first_ofName (name : String) (text : List Char) :
    (CallSearch.ofName name).first text = firstCall name.toList text := rfl

/-- Every search that is kept is the one of its name. -/
def SearchTable.Sound (searches : SearchTable) : Prop :=
  ∀ name search, searches.lookup name = some search → search = .ofName name

namespace SearchTable

@[simp]
theorem sound_nil : Sound [] := by
  intro name search h
  cases h

variable {searches : SearchTable}

theorem search_fst (h : searches.Sound) (name : String) :
    (searches.search name).1 = .ofName name := by
  unfold search
  cases kept : searches.lookup name with
  | none => rfl
  | some search => exact h name search kept

theorem Sound.search (h : searches.Sound) (name : String) : (searches.search name).2.Sound := by
  unfold SearchTable.search
  cases kept : searches.lookup name with
  | some search => exact h
  | none =>
    intro other search hother
    rw [lookup_cons_ite] at hother
    split_ifs at hother with same
    · rw [same]
      exact (Option.some.inj hother).symm
    · exact h other search hother

end SearchTable

/-- Steps that keep the state good, and find the same in all good states, find it for all items. -/
theorem gather_eq {σ α β : Type} {step : σ → α → List β × σ} {good : σ → Prop}
    {found : α → List β}
    (one : ∀ state item, good state → (step state item).1 = found item ∧ good (step state item).2)
    {state : σ} (h : good state) (items : List α) :
    (gather step state items).1 = items.flatMap found ∧ good (gather step state items).2 := by
  induction items generalizing state with
  | nil => exact ⟨rfl, h⟩
  | cons item rest ih =>
    obtain ⟨first, kept⟩ := one state item h
    obtain ⟨others, last⟩ := ih kept
    refine ⟨?_, last⟩
    rw [gather, List.flatMap_cons, ← first, ← others]

/-! ## Passes -/

/-- The finder has the directory of the batch, and sound searches. -/
structure LinkFinder.Fits (finder : LinkFinder) (ds : List Declaration) : Prop where
  directory : finder.directory = .of ds
  searches : finder.searches.Sound

namespace LinkFinder

variable {finder : LinkFinder} {ds : List Declaration}

theorem fits_enter (h : finder.searches.Sound) (ds : List Declaration) :
    (finder.enter ds).Fits ds :=
  ⟨rfl, h⟩

theorem Fits.named_under (h : finder.Fits ds) (name : String) :
    named (finder.directory.byName.under name) name = named ds name := by
  rw [h.directory, Directory.under_byName, named, named, List.filter_filter]
  simp only [Bool.and_self]

/-- An owner is in the batch exactly if the directory has a declaration of its id. -/
theorem Fits.ownershipLink?_withId? (h : finder.Fits ds) (d : Declaration) :
    ownershipLink? ((filled? d.owner).bind finder.directory.withId?).toList d =
      ownershipLink? ds d := by
  refine Option.ext fun l => ?_
  rw [ownershipLink?_eq_some_iff, ownershipLink?_eq_some_iff, h.directory]
  constructor
  · rintro ⟨t, ht, owner, link⟩
    obtain ⟨id, -, found⟩ := Option.bind_eq_some_iff.1 (Option.mem_toList.1 ht)
    rw [Directory.withId?_of] at found
    exact ⟨t, List.mem_reverse.1 (List.mem_of_find?_eq_some found), owner, link⟩
  · rintro ⟨t, ht, owner, link⟩
    have known : (ds.reverse.find? fun o => o.id = t.id).isSome :=
      List.find?_isSome.2 ⟨t, List.mem_reverse.2 ht, decide_eq_true rfl⟩
    obtain ⟨last, found⟩ := Option.isSome_iff_exists.1 known
    have same : last.id = t.id := by simpa using List.find?_some found
    refine ⟨last, ?_, by rw [owner, same], by rw [link, same]⟩
    rw [owner, filled?_id, Option.bind_some, Directory.withId?_of, found]
    exact List.mem_singleton_self last

theorem Fits.ownershipLinks_eq (h : finder.Fits ds) :
    finder.ownershipLinks ds = CodeGraph.ownershipLinks ds := by
  unfold ownershipLinks CodeGraph.ownershipLinks
  simp only [h.ownershipLink?_withId?]

theorem Fits.baseLink?_under (h : finder.Fits ds) (kind : LinkKind) (verb : String)
    (d : Declaration) (base : String) :
    baseLink? (finder.directory.byName.under base) kind verb d base =
      baseLink? ds kind verb d base := by
  rw [baseLink?, baseLink?, h.named_under]

theorem Fits.inheritanceLinks_eq (h : finder.Fits ds) :
    finder.inheritanceLinks ds = CodeGraph.inheritanceLinks ds := by
  have one : finder.inheritanceLinksOf = CodeGraph.inheritanceLinksOf ds := by
    funext d
    unfold inheritanceLinksOf CodeGraph.inheritanceLinksOf
    simp only [h.baseLink?_under]
  rw [inheritanceLinks, CodeGraph.inheritanceLinks, one]

theorem Fits.importLink?_under (h : finder.Fits ds) (file : SourceFile)
    (language : Option Language) (source : Declaration) (statement : Import.Statement)
    (name : String) :
    importLink? (finder.directory.byName.under name) file language source statement name =
      importLink? ds file language source statement name := by
  rw [importLink?, importLink?, h.named_under]

theorem Fits.importLinks_eq (h : finder.Fits ds) (table : ExtensionTable)
    (files : List SourceFile) :
    finder.importLinks table files = CodeGraph.importLinks table ds files := by
  have one : finder.importLinksOf table = CodeGraph.importLinksOf table ds := by
    funext file
    unfold importLinksOf CodeGraph.importLinksOf
    rw [h.directory, Directory.under_byPath, ← h.directory]
    cases representative? (ds.filter fun d => d.path = file.path) with
    | none => rfl
    | some source => simp only [h.importLink?_under]
  rw [importLinks, CodeGraph.importLinks, one]

/-! ## Calls -/

/-- The link for a call is the one at the first place where the name is called. -/
theorem callLink?_eq (caller : Declaration) (body : List Char) (name : String) :
    callLink? ds caller body name =
      if name = caller.name then none
      else (firstCall name.toList body).bind (callLinkAt? (named ds name) caller body) := by
  unfold callLink?
  cases firstCall name.toList body with
  | none => rfl
  | some offset => rfl

theorem Fits.callLink_eq (h : finder.Fits ds) (caller : Declaration) (body : List Char)
    (name : String) :
    (callLink caller body finder name).1 = (callLink? ds caller body name).toList ∧
      (callLink caller body finder name).2.Fits ds := by
  rw [callLink?_eq]
  unfold callLink
  split_ifs with own
  · exact ⟨rfl, h⟩
  · refine ⟨?_, h.directory, h.searches.search name⟩
    dsimp only
    rw [SearchTable.search_fst h.searches, CallSearch.first_ofName, h.directory,
      Directory.under_byName]

theorem Fits.callLinksOf_eq (h : finder.Fits ds) (names : List String)
    (texts : List (String × List (List Char))) (d : Declaration) :
    (callLinksOf names texts finder d).1 = CodeGraph.callLinksOf ds names texts d ∧
      (callLinksOf names texts finder d).2.Fits ds := by
  unfold callLinksOf CodeGraph.callLinksOf
  split_ifs
  · rcases callerBody? texts d with _ | _ | ⟨c, body⟩
    · exact ⟨rfl, h⟩
    · exact ⟨rfl, h⟩
    · have one (finder : LinkFinder) (name : String) (h : finder.Fits ds) :=
        h.callLink_eq d (c :: body) name
      dsimp only
      rw [List.filterMap_eq_flatMap_toList]
      exact gather_eq one h names
  · exact ⟨rfl, h⟩

theorem Fits.callLinks_eq (h : finder.Fits ds) (files : List SourceFile) :
    (finder.callLinks ds files).1 = CodeGraph.callLinks ds files ∧
      (finder.callLinks ds files).2.Fits ds := by
  have one (finder : LinkFinder) (d : Declaration) (h : finder.Fits ds) :=
    h.callLinksOf_eq (calledNames ds) (linesByPath files) d
  exact gather_eq one h ds

/-! ## All passes -/

/-- The directory is made anew, and searches are the same whenever they are made: a finder finds
the links of its batch, and can find those of the next one. -/
theorem resolve_eq (h : finder.searches.Sound) (table : ExtensionTable) (ds : List Declaration)
    (files : List SourceFile) :
    (finder.resolve table ds files).1 = CodeGraph.resolve table ds files ∧
      (finder.resolve table ds files).2.searches.Sound := by
  have fits := fits_enter h ds
  obtain ⟨calls, after⟩ := fits.callLinks_eq files
  refine ⟨?_, after.searches⟩
  unfold resolve CodeGraph.resolve allLinks
  dsimp only
  rw [fits.ownershipLinks_eq, fits.inheritanceLinks_eq, fits.importLinks_eq, calls]

end LinkFinder

end CodeGraph
