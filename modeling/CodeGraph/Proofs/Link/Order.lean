import CodeGraph.Proofs.Link.Distinct

/-!
# Links do not depend on the order of declarations

If the names of a batch are unambiguous, the order of its declarations and of the files makes no
difference to the links that are found, down to the places where they show (`resolve_perm`).  A name
leads to the one declaration that has it; of several links with one id, which come from one
declaration or one file, the first is the same in every order.
-/

namespace CodeGraph

/-! ## Searches in any order -/

section Search

variable {ι α β : Type}

/-- A search that only one item can answer finds its answer. -/
theorem findSome?_eq_some_iff_of_one {items : List ι} {g : ι → Option β}
    (one : ∀ i ∈ items, ∀ j ∈ items, (g i).isSome → (g j).isSome → i = j) {b : β} :
    items.findSome? g = some b ↔ ∃ i ∈ items, g i = some b := by
  constructor
  · exact List.exists_of_findSome?_eq_some
  · rintro ⟨i, hi, hb⟩
    have found : (items.findSome? g).isSome :=
      List.findSome?_isSome_iff.2 ⟨i, hi, Option.isSome_of_eq_some hb⟩
    obtain ⟨c, hc⟩ := Option.isSome_iff_exists.1 found
    obtain ⟨j, hj, hjc⟩ := List.exists_of_findSome?_eq_some hc
    have same : i = j := one i hi j hj (Option.isSome_of_eq_some hb) (Option.isSome_of_eq_some hjc)
    rw [hc, ← hjc, ← same, hb]

theorem findSome?_perm {items items' : List ι} (perm : items.Perm items') {g g' : ι → Option β}
    (same : ∀ i ∈ items, g i = g' i)
    (one : ∀ i ∈ items, ∀ j ∈ items, (g i).isSome → (g j).isSome → i = j) :
    items.findSome? g = items'.findSome? g' := by
  have one' : ∀ i ∈ items', ∀ j ∈ items', (g' i).isSome → (g' j).isSome → i = j := by
    intro i hi j hj
    have hi' := perm.mem_iff.2 hi
    have hj' := perm.mem_iff.2 hj
    rw [← same i hi', ← same j hj']
    exact one i hi' j hj'
  refine Option.ext fun b => ?_
  rw [findSome?_eq_some_iff_of_one one, findSome?_eq_some_iff_of_one one']
  refine exists_congr fun i => ?_
  rw [perm.mem_iff]
  refine and_congr_right fun hi => ?_
  rw [same i (perm.mem_iff.2 hi)]

theorem lookup_perm {entries entries' : List (String × β)} (perm : entries.Perm entries')
    (distinct : (entries.map Prod.fst).Nodup) (k : String) :
    entries.lookup k = entries'.lookup k := by
  rw [List.lookup_eq_findSome?, List.lookup_eq_findSome?]
  refine findSome?_perm perm (fun _ _ => rfl) fun e he e' he' h h' => ?_
  refine List.inj_on_of_nodup_map distinct he he' ?_
  have keyed {e : String × β} (h : (if k == e.1 then some e.2 else none).isSome) : k = e.1 := by
    by_contra differs
    simp [differs] at h
  rw [← keyed h, ← keyed h']

/-- If no two items have parts of one key in common, the first part of a key is the same in every
order of the items. -/
theorem find?_flatMap_perm {κ : Type} [DecidableEq κ] (key : α → κ) {items items' : List ι}
    (perm : items.Perm items') {f f' : ι → List α} {k : κ}
    (same : ∀ i ∈ items, (f i).find? (fun a => key a = k) = (f' i).find? fun a => key a = k)
    (apart : ∀ i ∈ items, ∀ j ∈ items, ∀ a ∈ f i, ∀ b ∈ f j, key a = key b → i = j) :
    (items.flatMap f).find? (fun a => key a = k) =
      (items'.flatMap f').find? fun a => key a = k := by
  rw [List.find?_flatMap, List.find?_flatMap]
  refine findSome?_perm perm same fun i hi j hj hfi hfj => ?_
  obtain ⟨a, ha, hak⟩ := List.find?_isSome.1 hfi
  obtain ⟨b, hb, hbk⟩ := List.find?_isSome.1 hfj
  exact apart i hi j hj a ha b hb ((of_decide_eq_true hak).trans (of_decide_eq_true hbk).symm)

end Search

/-! ## Unambiguous batches -/

/-- All declarations are plain, and no name occurs twice. -/
structure Unambiguous (ds : List Declaration) : Prop where
  plain : ∀ d ∈ ds, d.Plain
  names : (ds.map Declaration.name).Nodup

namespace Unambiguous

variable {ds ds' : List Declaration}

theorem perm (h : Unambiguous ds) (perm : ds.Perm ds') : Unambiguous ds' where
  plain d hd := h.plain d (perm.mem_iff.2 hd)
  names := (perm.map Declaration.name).nodup_iff.1 h.names

theorem eq_of_name_eq (h : Unambiguous ds) {d e : Declaration} (hd : d ∈ ds) (he : e ∈ ds)
    (same : d.name = e.name) : d = e :=
  List.inj_on_of_nodup_map h.names hd he same

theorem eq_of_id_eq (h : Unambiguous ds) {d e : Declaration} (hd : d ∈ ds) (he : e ∈ ds)
    (same : d.id = e.id) : d = e := by
  have parts := (id_eq_iff_parts_eq (h.plain d hd) (h.plain e he)).1 same
  exact h.eq_of_name_eq hd he (congrArg (fun p => p.2.2) parts)

theorem ids (h : Unambiguous ds) : (ds.map Declaration.id).Nodup := by
  refine List.Nodup.map_on (fun d hd e he same => h.eq_of_id_eq hd he same) ?_
  exact h.names.of_map _

/-- A name leads to the same candidates in every order. -/
theorem named_perm (h : Unambiguous ds) (perm : ds.Perm ds') (name : String) :
    named ds name = named ds' name := by
  have filtered : (named ds name).Perm (named ds' name) := perm.filter _
  have one : ∀ d ∈ named ds name, ∀ e ∈ named ds name, d = e := fun d hd e he => by
    obtain ⟨hd, hdn⟩ := mem_named.1 hd
    obtain ⟨he, hen⟩ := mem_named.1 he
    exact h.eq_of_name_eq hd he (hdn.trans hen.symm)
  have nodup : (named ds name).Nodup := (h.names.of_map _).filter _
  match hn : named ds name with
  | [] =>
    rw [hn] at filtered
    exact filtered.nil_eq
  | [d] =>
    rw [hn] at filtered
    exact (List.perm_singleton.1 filtered.symm).symm
  | d :: e :: rest =>
    rw [hn] at one nodup
    have same := one d List.mem_cons_self e (List.mem_cons_of_mem _ List.mem_cons_self)
    exact absurd (same ▸ List.mem_cons_self) (List.nodup_cons.1 nodup).1

/-- Links from declarations of the batch that share an id share the source. -/
theorem source_eq (h : Unambiguous ds) {d e : Declaration} (hd : d ∈ ds) (he : e ∈ ds) {l l' : Link}
    (hl : l.source = d.id) (hl' : l'.source = e.id) (same : l.id = l'.id) : d = e := by
  rw [Link.id, Link.id, hl, hl'] at same
  exact h.eq_of_id_eq hd he (linkId_inj (h.plain d hd) (h.plain e he) same).2.1

theorem target_eq (h : Unambiguous ds) {d e : Declaration} (hd : d ∈ ds) (he : e ∈ ds) {l l' : Link}
    (hl : l.source = d.id) (hl' : l'.source = e.id) (same : l.id = l'.id) :
    l.target = l'.target := by
  rw [Link.id, Link.id, hl, hl'] at same
  exact (linkId_inj (h.plain d hd) (h.plain e he) same).2.2

end Unambiguous

/-! ## The passes -/

variable {table : ExtensionTable} {ds ds' : List Declaration} {files files' : List SourceFile}

/-- The first link of an id in some links. -/
def firstWith (id : String) (links : List Link) : Option Link := links.find? fun l => l.id = id

theorem firstWith_ownershipLinks (h : Unambiguous ds) (perm : ds.Perm ds') (id : String) :
    firstWith id (ownershipLinks ds) = firstWith id (ownershipLinks ds') := by
  have link : ownershipLink? ds = ownershipLink? ds' := by
    funext d
    unfold ownershipLink?
    simp only [perm.any_eq]
  rw [ownershipLinks, ownershipLinks, link, List.filterMap_eq_flatMap_toList,
    List.filterMap_eq_flatMap_toList]
  refine find?_flatMap_perm Link.id perm (fun _ _ => rfl) fun d hd e he l hl l' hl' same => ?_
  rw [← link, Option.mem_toList] at hl hl'
  obtain ⟨t, ht, -, rfl⟩ := ownershipLink?_eq_some_iff.1 hl
  obtain ⟨u, hu, -, rfl⟩ := ownershipLink?_eq_some_iff.1 hl'
  exact h.eq_of_id_eq hd he (h.target_eq ht hu rfl rfl same)

theorem firstWith_inheritanceLinks (h : Unambiguous ds) (perm : ds.Perm ds') (id : String) :
    firstWith id (inheritanceLinks ds) = firstWith id (inheritanceLinks ds') := by
  have links : inheritanceLinksOf ds = inheritanceLinksOf ds' := by
    funext d
    have base (kind : LinkKind) (verb : String) :
        baseLink? ds kind verb d = baseLink? ds' kind verb d := by
      funext base
      rw [baseLink?, baseLink?, h.named_perm perm]
    rw [inheritanceLinksOf, inheritanceLinksOf, base, base]
  rw [inheritanceLinks, inheritanceLinks, links]
  refine find?_flatMap_perm Link.id perm (fun _ _ => rfl) fun d hd e he l hl l' hl' same => ?_
  rw [← links] at hl hl'
  obtain ⟨-, -, -, source, -⟩ := mem_inheritanceLinksOf hl
  obtain ⟨-, -, -, source', -⟩ := mem_inheritanceLinksOf hl'
  exact h.source_eq hd he source source' same

/-- The import links of a file depend on its own declarations in their order, and on the candidates
for the names that it imports. -/
theorem importLinksOf_perm (h : Unambiguous ds) (perm : ds.Perm ds') {file : SourceFile}
    (own : (ds.filter fun d => d.path = file.path) = ds'.filter fun d => d.path = file.path) :
    importLinksOf table ds file = importLinksOf table ds' file := by
  have link (language : Option Language) (source : Declaration) (statement : Import.Statement) :
      importLink? ds file language source statement =
        importLink? ds' file language source statement := by
    funext name
    rw [importLink?, importLink?, h.named_perm perm]
  unfold importLinksOf
  simp only [own, link]

theorem firstWith_importLinks (h : Unambiguous ds) (perm : ds.Perm ds')
    (filesPerm : files.Perm files') (distinct : (files.map SourceFile.path).Nodup)
    (own : ∀ file ∈ files,
      (ds.filter fun d => d.path = file.path) = ds'.filter fun d => d.path = file.path)
    (id : String) :
    firstWith id (importLinks table ds files) = firstWith id (importLinks table ds' files') := by
  refine find?_flatMap_perm Link.id filesPerm (fun file hfile => ?_)
    fun file hfile file' hfile' l hl l' hl' same => ?_
  · rw [importLinksOf_perm h perm (own file hfile)]
  · obtain ⟨d, hd, -, -, -, source, -, path, -⟩ := mem_importLinksOf hl
    obtain ⟨d', hd', -, -, -, source', -, path', -⟩ := mem_importLinksOf hl'
    obtain rfl := h.source_eq hd hd' source source' same
    exact List.inj_on_of_nodup_map distinct hfile hfile' (path.symm.trans path')

theorem calledNames_perm (h : Unambiguous ds) (perm : ds.Perm ds') :
    (calledNames ds).Perm (calledNames ds') := by
  have unrepeated {ds : List Declaration} (h : Unambiguous ds) :
      calledNames ds = (ds.map Declaration.name).filter fun name => 1 < name.length := by
    refine withoutRepeats_eq_self (fun name => name) ?_
    rw [List.map_id']
    exact h.names.filter _
  rw [unrepeated h, unrepeated (h.perm perm)]
  exact (perm.map Declaration.name).filter _

/-- The bodies in which calls are looked for are all that the files matter for. -/
theorem callLinks_congr (h : ∀ d ∈ ds,
    (linesByPath files).lookup d.path = (linesByPath files').lookup d.path) :
    callLinks ds files = callLinks ds files' := by
  refine List.flatMap_congr fun d hd => ?_
  simp only [callLinksOf, callerBody?, h d hd]

/-- In one body the first call of every other declaration counts, so the order in which names are
looked for makes no difference. -/
theorem firstWith_calls (h : Unambiguous ds) (perm : ds.Perm ds') {d : Declaration} (hd : d ∈ ds)
    (body : List Char) (id : String) :
    firstWith id ((calledNames ds).filterMap (callLink? ds d body)) =
      firstWith id ((calledNames ds').filterMap (callLink? ds' d body)) := by
  have link : callLink? ds d body = callLink? ds' d body := by
    funext name
    unfold callLink?
    rw [h.named_perm perm]
  rw [link, List.filterMap_eq_flatMap_toList, List.filterMap_eq_flatMap_toList]
  refine find?_flatMap_perm Link.id (calledNames_perm h perm) (fun _ _ => rfl)
    fun name _ name' _ l hl l' hl' same => ?_
  rw [← link, Option.mem_toList] at hl hl'
  obtain ⟨-, source, -, t, ht, rfl, target⟩ := callLink?_eq_some hl
  obtain ⟨-, source', -, t', ht', rfl, target'⟩ := callLink?_eq_some hl'
  have targets : t.id = t'.id := by rw [← target, ← target', h.target_eq hd hd source source' same]
  rw [h.eq_of_id_eq ht ht' targets]

theorem firstWith_callLinks (h : Unambiguous ds) (perm : ds.Perm ds') (id : String) :
    firstWith id (callLinks ds files) = firstWith id (callLinks ds' files) := by
  refine find?_flatMap_perm Link.id perm (fun d hd => ?_) fun d hd e he l hl l' hl' same => ?_
  · unfold callLinksOf
    split_ifs
    · split
      · exact firstWith_calls h perm hd _ id
      · rfl
    · rfl
  · obtain ⟨-, -, -, source, -⟩ := mem_callLinksOf hl
    obtain ⟨-, -, -, source', -⟩ := mem_callLinksOf hl'
    exact h.source_eq hd he source source' same

theorem callLinks_perm (filesPerm : files.Perm files')
    (distinct : (files.map SourceFile.path).Nodup) : callLinks ds files = callLinks ds files' := by
  refine callLinks_congr fun d _ => lookup_perm ?_ ?_ d.path
  · exact ((files.reverse_perm.trans filesPerm).trans files'.reverse_perm.symm).map _
  · rw [linesByPath, List.map_map]
    exact (files.reverse_perm.map SourceFile.path).nodup_iff.2 distinct

/-- In an unambiguous batch the links do not depend on the order of declarations and files, as long
as the declarations of each file keep theirs. -/
theorem resolve_perm (h : Unambiguous ds) (perm : ds.Perm ds') (filesPerm : files.Perm files')
    (distinct : (files.map SourceFile.path).Nodup)
    (own : ∀ file ∈ files,
      (ds.filter fun d => d.path = file.path) = ds'.filter fun d => d.path = file.path) :
    (resolve table ds files).Perm (resolve table ds' files') := by
  refine withoutRepeats_perm Link.id fun id => ?_
  simp only [allLinks, List.find?_append]
  have ownership := firstWith_ownershipLinks h perm id
  have inheritance := firstWith_inheritanceLinks h perm id
  have imports : firstWith id (importLinks table ds files) =
      firstWith id (importLinks table ds' files') :=
    firstWith_importLinks h perm filesPerm distinct own id
  have calls : firstWith id (callLinks ds files) = firstWith id (callLinks ds' files') := by
    rw [callLinks_perm filesPerm distinct]
    exact firstWith_callLinks h perm id
  unfold firstWith at ownership inheritance imports calls
  rw [ownership, inheritance, imports, calls]

end CodeGraph
